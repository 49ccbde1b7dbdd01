import SceneTree.Proofs.Edit.History

/-!
This module contains the names of an edited container, and what comes of editing a container a
second time: an edit decides for one name whether it is listed, and a second run of the same edits
finds everything as it would leave it.
-/

namespace SceneTree

namespace EditTree

inductive Distinct : EditTree → Prop where
  | node {edit : Edit} {children : List (Token × EditTree)} (names : (Dict.keys children).Nodup)
      (below : ∀ entry ∈ children, Distinct entry.2) : Distinct (node edit children)

theorem distinct_blank : Distinct blank := by
  apply Distinct.node
  . exact List.nodup_nil
  . simp

theorem Distinct.names {tree : EditTree} (h : tree.Distinct) : (Dict.keys tree.children).Nodup := by
  cases h with
  | node names _ => exact names

theorem Distinct.of_mem {tree : EditTree} (h : tree.Distinct) {entry : Token × EditTree}
    (hentry : entry ∈ tree.children) : entry.2.Distinct := by
  cases h with
  | node _ below => exact below entry hentry

theorem Distinct.child {tree child : EditTree} {name : Token} (h : tree.Distinct)
    (hchild : Dict.get? tree.children name = some child) : child.Distinct :=
  h.of_mem (Dict.mem_of_get?_eq_some hchild)

theorem record_distinct (value : Edit) (place : Locator) {tree : EditTree} (h : tree.Distinct) :
    (tree.record value place).Distinct := by
  induction place generalizing tree with
  | nil =>
    cases tree with
    | node edit children =>
      unfold record
      apply Distinct.node
      . exact List.nodup_nil
      . simp
  | cons name rest ih =>
    cases h with
    | @node edit children names below =>
      unfold record
      rw [Dict.modify_eq_insert]
      apply Distinct.node
      . exact Dict.nodup_keys_insert names _ _
      . intro entry hentry
        rcases Dict.eq_or_mem_of_mem_insert hentry with hentry | hentry
        . subst hentry
          apply ih
          cases hchild : Dict.get? children name with
          | none => exact distinct_blank
          | some child => exact below _ (Dict.mem_of_get?_eq_some hchild)
        . exact below entry hentry

theorem filter_ne_eq_self {names : List Token} {name : Token} (h : name ∉ names) :
    names.filter (· ≠ name) = names := by
  rw [List.filter_eq_self]
  intro other hother
  have : other ≠ name := fun heq => h (heq ▸ hother)
  simpa using this

theorem nodup_eraseDups (names : List Token) : names.eraseDups.Nodup := by
  cases names with
  | nil => exact List.nodup_nil
  | cons name rest =>
    rw [List.eraseDups_cons, List.nodup_cons]
    constructor
    . simp [List.mem_eraseDups]
    . exact nodup_eraseDups _
termination_by names.length
decreasing_by
  have := List.length_filter_le (fun other => !other == name) rest
  simp only [List.length_cons]
  omega

theorem eraseDups_of_nodup {names : List Token} (h : names.Nodup) : names.eraseDups = names := by
  induction names with
  | nil => rfl
  | cons name rest ih =>
    rw [List.nodup_cons] at h
    have hfilter : (rest.filter fun other => !other == name) = rest := by
      simpa using filter_ne_eq_self h.1
    rw [List.eraseDups_cons, hfilter, ih h.2]

def creates (tree : EditTree) : Bool :=
  tree.edit.isReplace || tree.replacesBelow

theorem anyReplaces_eq_any (children : List (Token × EditTree)) :
    anyReplaces children = children.any fun entry => entry.2.creates := by
  induction children with
  | nil => simp [anyReplaces]
  | cons entry rest ih =>
    obtain ⟨name, edit, below⟩ := entry
    unfold anyReplaces
    rw [ih, List.any_cons]
    rfl

def lists (tree : EditTree) (before : Bool) : Bool :=
  match tree.edit with
  | .delete => false
  | _ => tree.creates || before

theorem lists_lists (tree : EditTree) (before : Bool) :
    tree.lists (tree.lists before) = tree.lists before := by
  unfold lists
  cases tree.edit <;> simp

theorem step_eq (names : List Token) (name : Token) (tree : EditTree) :
    editedNames.step names (name, tree)
      =
    if tree.lists (decide (name ∈ names)) then if name ∈ names then names else names ++ [name]
    else names.filter (· ≠ name) := by
  obtain ⟨edit, children⟩ := tree
  cases edit with
  | keep =>
    simp only [editedNames.step, lists, creates, EditTree.edit, Edit.isReplace, Bool.false_or]
    by_cases hname : name ∈ names
    . simp [hname]
    . cases replacesBelow (node .keep children) with
      | true => simp [hname]
      | false => simpa [hname] using (filter_ne_eq_self hname).symm
  | replace source => simp [editedNames.step, lists, creates, EditTree.edit, Edit.isReplace]
  | delete => simp [editedNames.step, lists, EditTree.edit]

theorem mem_step (names : List Token) (name other : Token) (tree : EditTree) :
    decide (other ∈ editedNames.step names (name, tree))
      =
    if name = other then tree.lists (decide (name ∈ names)) else decide (other ∈ names) := by
  rw [step_eq]
  by_cases hname : name = other
  . subst hname
    cases tree.lists (decide (name ∈ names)) with
    | true => by_cases h : name ∈ names <;> simp [h]
    | false => simp
  . cases tree.lists (decide (name ∈ names)) with
    | true => by_cases h : name ∈ names <;> simp [h, hname, Ne.symm hname]
    | false => simp [hname, Ne.symm hname]

theorem step_nodup {names : List Token} (h : names.Nodup) (entry : Token × EditTree) :
    (editedNames.step names entry).Nodup := by
  rw [step_eq]
  split
  . split
    . exact h
    . next hname =>
      rw [List.nodup_append]
      simpa using ⟨h, fun other hother heq => hname (heq ▸ hother)⟩
  . exact h.filter _

theorem step_eq_self {names : List Token} {name : Token} {tree : EditTree}
    (h : tree.lists (decide (name ∈ names)) = decide (name ∈ names)) :
    editedNames.step names (name, tree) = names := by
  rw [step_eq, h]
  by_cases hname : name ∈ names
  . simp [hname]
  . simpa [hname] using filter_ne_eq_self hname

theorem editedNames_nodup (children : List (Token × EditTree)) (names : List Token) :
    (editedNames children names).Nodup := by
  have hfold : ∀ names : List Token, names.Nodup →
      (children.foldl editedNames.step names).Nodup := by
    induction children with
    | nil => exact fun _ h => h
    | cons entry rest ih => exact fun _ h => ih _ (step_nodup h entry)
  exact hfold _ (nodup_eraseDups names)

theorem mem_editedNames {children : Dict Token EditTree} (h : (Dict.keys children).Nodup)
    (names : List Token) (name : Token) :
    decide (name ∈ editedNames children names)
      =
    match Dict.get? children name with
    | some tree => tree.lists (decide (name ∈ names))
    | none => decide (name ∈ names) := by
  have hfold : ∀ names : List Token,
      decide (name ∈ children.foldl editedNames.step names)
        =
      match Dict.get? children name with
      | some tree => tree.lists (decide (name ∈ names))
      | none => decide (name ∈ names) := by
    induction children with
    | nil => exact fun _ => rfl
    | cons entry rest ih =>
      obtain ⟨key, tree⟩ := entry
      unfold Dict.keys at h
      rw [List.map_cons, List.nodup_cons] at h
      intro names
      rw [List.foldl_cons, ih h.2, Dict.get?_cons, mem_step]
      by_cases hkey : key = name
      . subst hkey
        rw [Dict.get?_eq_none_of_not_mem h.1, if_pos rfl, if_pos rfl]
      . rw [if_neg hkey, if_neg hkey]
  unfold editedNames
  rw [hfold]
  simp only [List.mem_eraseDups]

-- After all edits each name is as its own edit leaves it, so the edit has nothing left to do.
theorem editedNames_editedNames {children : Dict Token EditTree}
    (h : (Dict.keys children).Nodup) (names : List Token) :
    editedNames children (editedNames children names) = editedNames children names := by
  have hfold : ∀ rest : List (Token × EditTree), (∀ entry ∈ rest, entry ∈ children) →
      rest.foldl editedNames.step (editedNames children names) = editedNames children names := by
    intro rest hrest
    induction rest with
    | nil => rfl
    | cons entry rest ih =>
      obtain ⟨name, tree⟩ := entry
      rw [List.forall_mem_cons] at hrest
      have hlisted := mem_editedNames h names name
      rw [Dict.get?_eq_some_of_mem h hrest.1] at hlisted
      rw [List.foldl_cons, step_eq_self, ih hrest.2]
      rw [hlisted]
      exact lists_lists tree _
  calc editedNames children (editedNames children names)
    _ = children.foldl editedNames.step (editedNames children names).eraseDups := rfl
    _ = children.foldl editedNames.step (editedNames children names) := by
      rw [eraseDups_of_nodup (editedNames_nodup children names)]
    _ = editedNames children names := hfold children fun _ h => h

theorem layer_child (children : List (Token × EditTree)) (base : Option Container) (name : Token) :
    (layer children base).child name
      =
    match Dict.get? children name with
    | some tree => tree.apply (base.bind (·.child name))
    | none => base.bind (·.child name) :=
  applyChild_eq children base name

theorem layer_layer {children : List (Token × EditTree)} (h : (Dict.keys children).Nodup)
    (hchildren : ∀ entry ∈ children, ∀ below : Option Source,
      entry.2.apply (entry.2.apply below) = entry.2.apply below) (base : Option Container) :
    layer children (some (layer children base)) = layer children base := by
  have hchild : (layer children (some (layer children base))).child
      = (layer children base).child := by
    funext name
    rw [layer_child, Option.bind_some, layer_child]
    cases hget : Dict.get? children name with
    | some tree => exact hchildren (name, tree) (Dict.mem_of_get?_eq_some hget) _
    | none => rfl
  have hnames : (layer children (some (layer children base))).names
      = (layer children base).names :=
    editedNames_editedNames h _
  exact (Container.mk.injEq ..).mpr ⟨hnames, hchild⟩

theorem apply_keep_of_container (children : List (Token × EditTree)) (container : Container) :
    (node .keep children).apply (some container.source)
      =
    some (layer children (some container)).source := by
  unfold Container.source apply
  rfl

theorem apply_keep_of_not_container (children : List (Token × EditTree)) {below : Option Source}
    (h : below.bind Source.container? = none) :
    (node .keep children).apply below
      =
    if anyReplaces children then some (layer children none).source else below := by
  unfold apply
  split
  . cases h
  . rfl

theorem Distinct.apply_apply {tree : EditTree} (h : tree.Distinct) (below : Option Source) :
    tree.apply (tree.apply below) = tree.apply below := by
  induction h generalizing below with
  | @node edit children names _ ih =>
    have hlayer := layer_layer names ih
    cases edit with
    | keep =>
      cases hbelow : below.bind Source.container? with
      | some container =>
        obtain ⟨source, hsome, hcontainer⟩ := Option.bind_eq_some_iff.1 hbelow
        rw [hsome, Source.container?_eq_some_iff.1 hcontainer, apply_keep_of_container,
          apply_keep_of_container, hlayer]
      | none =>
        rw [apply_keep_of_not_container children hbelow]
        split
        . rw [apply_keep_of_container, hlayer]
        . next hreplaces => rw [apply_keep_of_not_container children hbelow, if_neg hreplaces]
    | replace source =>
      cases children with
      | nil => rfl
      | cons first rest => rfl
    | delete => rfl

end EditTree

namespace Editor

-- A replaced root is laid over the same container again, and any other over the edited one.
theorem finish_finish {editor : Editor} (h : editor.edits.Distinct) :
    { editor with base := some editor.finish }.finish = editor.finish := by
  have hlayer := EditTree.layer_layer h.names fun entry hentry => (h.of_mem hentry).apply_apply
  unfold finish
  dsimp only
  split
  . cases editor.edits.edit with
    | keep => exact hlayer editor.base
    | replace source =>
      cases source with
      | container names child => rfl
      | _ => exact hlayer editor.base
    | delete => exact hlayer editor.base
  . rfl

theorem set_withBase (editor : Editor) (base : Option Container) (place : Locator)
    (value : Option Source) :
    { editor with base }.set place value = { editor.set place value with base } := by
  unfold set
  dsimp only
  split
  . rfl
  . rfl

-- The edits of a history do not depend on what is edited.
theorem run_new (base other : Option Container) (changes : List Change) :
    (new other).run changes = { (new base).run changes with base := other } := by
  induction changes using List.reverseRecOn with
  | nil => rfl
  | append_singleton changes change ih => rw [run_concat, run_concat, ih, set_withBase]

theorem run_base (base : Option Container) (changes : List Change) :
    ((new base).run changes).base = base := by
  induction changes using List.reverseRecOn with
  | nil => rfl
  | append_singleton changes change ih => rw [run_concat, set_base, ih]

theorem set_distinct {editor : Editor} (h : editor.edits.Distinct) (place : Locator)
    (value : Option Source) : (editor.set place value).edits.Distinct := by
  by_cases haccepts : accepts place (Edit.write value)
  . rw [set_edits haccepts]
    exact EditTree.record_distinct _ _ h
  . rw [set_of_not_accepts haccepts]
    exact h

theorem run_distinct (base : Option Container) (changes : List Change) :
    ((new base).run changes).edits.Distinct := by
  induction changes using List.reverseRecOn with
  | nil => exact EditTree.distinct_blank
  | append_singleton changes change ih =>
    rw [run_concat]
    exact set_distinct ih _ _

theorem finish_run_finish_run (base : Option Container) (changes : List Change) :
    ((new (some ((new base).run changes).finish)).run changes).finish
      =
    ((new base).run changes).finish := by
  rw [run_new base]
  exact finish_finish (run_distinct base changes)

end Editor

end SceneTree
