import SceneTree.Proofs.Edit.Listing

/-!
This module contains patches, which change a container at once and go through it from the top, and
the proof that an editor makes of replacements what the patches make of them one after the other.
With deletions this is not so: a name that comes back after a deletion has its old place in an
editor, and the last one after a patch.
-/

namespace SceneTree

/-! ## Patches -/

namespace Container

/--
The container with every name listed once, at its first place, which is how editors list names.
-/
def listedOnce (c : Container) : Container :=
  { c with names := c.names.eraseDups }

def put (c : Container) (name : Token) (source : Source) : Container where
  names := if name ∈ c.names then c.names.eraseDups else c.names.eraseDups ++ [name]
  child := fun other => if name = other then some source else c.child other

/--
Put a source in a place below a child, or in that of the child. Where there is no container on the
way, an empty one takes the place of what is there.
-/
def putBelow (source : Source) : Token → Locator → Container → Container
  | name, [], c => c.put name source
  | name, next :: rest, c =>
    c.put name (putBelow source next rest ((c.container? name).getD .empty)).source

def patch (source : Source) : Locator → Container → Container
  | [], c => source.container?.elim c listedOnce
  | name :: rest, c => putBelow source name rest c

theorem listedOnce_of_nodup {c : Container} (h : c.names.Nodup) : c.listedOnce = c := by
  unfold listedOnce
  rw [EditTree.eraseDups_of_nodup h]

theorem putBelow_listedOnce (source : Source) (name : Token) (rest : Locator) (c : Container) :
    putBelow source name rest c.listedOnce = putBelow source name rest c := by
  have hput : ∀ value, c.listedOnce.put name value = c.put name value := by
    intro value
    unfold put listedOnce
    simp only [List.mem_eraseDups, EditTree.eraseDups_of_nodup (EditTree.nodup_eraseDups c.names)]
  cases rest with
  | nil => exact hput source
  | cons next rest => exact hput _

end Container

namespace EditTree

/-! ## Trees of replacements -/

inductive Replacing : EditTree → Prop where
  | node {edit : Edit} {children : List (Token × EditTree)}
      (creates : ∀ entry ∈ children, entry.2.creates)
      (below : ∀ entry ∈ children, Replacing entry.2) : Replacing (node edit children)

theorem replacing_blank : Replacing blank := by
  apply Replacing.node
  . simp
  . simp

theorem record_replace_creates (source : Source) (place : Locator) {tree : EditTree}
    (h : tree.Distinct) : (tree.record (.replace source) place).creates := by
  rw [(record_distinct _ place h).creates_iff]
  refine ⟨place, ?_⟩
  rw [record_editAt, if_pos rfl]
  rfl

theorem Replacing.child {tree child : EditTree} {name : Token} (h : tree.Replacing)
    (hchild : Dict.get? tree.children name = some child) : child.Replacing := by
  cases h with
  | node _ below => exact below _ (Dict.mem_of_get?_eq_some hchild)

theorem Replacing.getD_child {tree : EditTree} (h : tree.Replacing) (name : Token) :
    ((Dict.get? tree.children name).getD blank).Replacing := by
  cases hget : Dict.get? tree.children name with
  | none => exact replacing_blank
  | some child => exact h.child hget

theorem Replacing.creates_of_mem {edit : Edit} {children : List (Token × EditTree)}
    (h : (EditTree.node edit children).Replacing) {entry : Token × EditTree}
    (hentry : entry ∈ children) : entry.2.creates := by
  cases h with
  | node creates _ => exact creates entry hentry

theorem Replacing.record {tree : EditTree} (h : tree.Replacing) (hdistinct : tree.Distinct)
    (source : Source) (place : Locator) : (tree.record (.replace source) place).Replacing := by
  induction place generalizing tree with
  | nil =>
    rw [record_nil]
    exact .node (by simp) (by simp)
  | cons name rest ih =>
    have hchild := h.getD_child name
    have hchildDistinct := hdistinct.getD_child name
    rw [record_cons]
    cases h with
    | @node edit children creates below =>
      apply Replacing.node
      . intro entry hentry
        rcases Dict.eq_or_mem_of_mem_insert hentry with hentry | hentry
        . subst hentry
          exact record_replace_creates source rest hchildDistinct
        . exact creates entry hentry
      . intro entry hentry
        rcases Dict.eq_or_mem_of_mem_insert hentry with hentry | hentry
        . subst hentry
          exact ih hchild hchildDistinct
        . exact below entry hentry

/--
The container over which the edits below a place lie once the place is open.
-/
def openedOver (tree : EditTree) (below : Option Source) : Container :=
  layer tree.children (tree.edit.opened.container? below)

theorem apply_of_anyReplaces (tree : EditTree) (hopened : tree.edit.opened = tree.edit)
    (hreplaces : anyReplaces tree.children) (below : Option Source) :
    tree.apply below = some (tree.openedOver below).source := by
  unfold openedOver
  rw [hopened]
  obtain ⟨edit, children⟩ := tree
  dsimp only [EditTree.children, EditTree.edit] at hreplaces ⊢
  cases edit with
  | keep =>
    cases hbelow : below.bind Source.container? with
    | some container =>
      obtain ⟨source, hsome, hcontainer⟩ := Option.bind_eq_some_iff.1 hbelow
      rw [hsome, Source.container?_eq_some_iff.1 hcontainer, apply_keep_of_container]
      rfl
    | none =>
      rw [apply_keep_of_not_container children hbelow, if_pos hreplaces, Edit.container?, hbelow]
  | replace source =>
    cases children with
    | nil => simp [anyReplaces] at hreplaces
    | cons first rest =>
      unfold apply
      rfl
  | delete => cases hopened

theorem layer_nil (c : Container) : layer [] (some c) = c.listedOnce := by
  have hchild : (layer [] (some c)).child = c.child := by
    funext name
    rw [layer_child]
    rfl
  exact (Container.mk.injEq ..).mpr ⟨rfl, hchild⟩

theorem blank_openedOver (below : Option Source) :
    blank.openedOver below = ((below.bind Source.container?).getD .empty).listedOnce := by
  unfold openedOver
  cases hbelow : below.bind Source.container? with
  | some container =>
    change layer [] (below.bind Source.container?) = container.listedOnce
    rw [hbelow, layer_nil]
  | none =>
    change layer [] (below.bind Source.container?) = Container.empty.listedOnce
    rw [hbelow]
    have hchild : (layer [] none).child = Container.empty.child := by
      funext name
      rw [layer_child]
      rfl
    exact (Container.mk.injEq ..).mpr ⟨rfl, hchild⟩

theorem openedOver_listedOnce (tree : EditTree) (below : Option Source) :
    (tree.openedOver below).listedOnce = tree.openedOver below :=
  Container.listedOnce_of_nodup (editedNames_nodup _ _)

theorem blank_opened_apply (below : Option Source) :
    (((blank.apply below).bind Source.container?).getD .empty).listedOnce
      =
    blank.openedOver below := by
  cases hbelow : below.bind Source.container? with
  | some container =>
    obtain ⟨source, hsome, hcontainer⟩ := Option.bind_eq_some_iff.1 hbelow
    have happly : blank.apply below = some (layer [] (some container)).source := by
      rw [hsome, Source.container?_eq_some_iff.1 hcontainer]
      exact apply_keep_of_container [] container
    rw [happly, blank_openedOver, hbelow, layer_nil]
    exact Container.listedOnce_of_nodup (nodup_eraseDups _)
  | none =>
    have happly : blank.apply below = below := apply_keep_of_not_container [] hbelow
    rw [happly, blank_openedOver]

-- Where there are no edits below, the place is opened as it is.
theorem opened_apply_nil (edit : Edit) (below : Option Source) :
    ((((node edit []).apply below).bind Source.container?).getD .empty).listedOnce
      =
    (node edit []).openedOver below := by
  cases edit with
  | keep => exact blank_opened_apply below
  | replace source =>
    unfold apply
    cases source with
    | container names child => exact (layer_nil ⟨names, child⟩).symm
    | _ => exact (layer_nil Container.empty).symm
  | delete =>
    unfold apply
    exact (layer_nil Container.empty).symm

theorem Replacing.opened_apply {tree : EditTree} (h : tree.Replacing) (hformed : tree.WellFormed)
    (below : Option Source) :
    (((tree.apply below).bind Source.container?).getD .empty).listedOnce
      =
    tree.openedOver below := by
  obtain ⟨edit, children⟩ := tree
  cases children with
  | nil => exact opened_apply_nil edit below
  | cons first rest =>
    have hreplaces : anyReplaces (first :: rest) := by
      rw [anyReplaces_eq_any, List.any_cons, h.creates_of_mem List.mem_cons_self]
      rfl
    have hopened : edit.opened = edit := by
      cases hformed with
      | node opened _ => exact opened.resolve_right (List.cons_ne_nil _ _)
    rw [apply_of_anyReplaces (EditTree.node edit (first :: rest)) hopened hreplaces]
    exact openedOver_listedOnce _ below

theorem Replacing.editedNames_eq {tree : EditTree} (h : tree.Replacing) (hformed : tree.WellFormed)
    (hdistinct : tree.Distinct) (names : List Token) :
    editedNames tree.children names
      =
    names.eraseDups ++ (Dict.keys tree.children).filter (· ∉ names) := by
  obtain ⟨edit, children⟩ := tree
  have hlists : ∀ name child, Dict.get? children name = some child → ∀ before,
      child.lists before = true := by
    intro name child hchild before
    apply (hformed.child hchild).lists_of_creates
    exact h.creates_of_mem (Dict.mem_of_get?_eq_some hchild)
  rw [EditTree.editedNames_eq hdistinct.names]
  congr 1
  . rw [List.filter_eq_self]
    intro name _
    cases hget : Dict.get? children name with
    | none => simp [EditTree.children, hget]
    | some child => simp [EditTree.children, hget, hlists name child hget]
  . apply List.filter_congr
    intro name hname
    have hsome := (Dict.contains_iff children name).2 hname
    unfold Dict.contains at hsome
    obtain ⟨child, hchild⟩ := Option.isSome_iff_exists.1 hsome
    simp [EditTree.children, hchild, hlists name child hchild]

theorem Replacing.editedNames_record {tree : EditTree} (h : tree.Replacing)
    (hformed : tree.WellFormed) (hdistinct : tree.Distinct) (source : Source) (name : Token)
    (rest : Locator) (names : List Token) :
    editedNames (tree.record (.replace source) (name :: rest)).children names
      =
    if name ∈ editedNames tree.children names then editedNames tree.children names
    else editedNames tree.children names ++ [name] := by
  have hkeys : Dict.keys (tree.record (.replace source) (name :: rest)).children
      = if name ∈ Dict.keys tree.children then Dict.keys tree.children
        else Dict.keys tree.children ++ [name] := by
    rw [record_cons]
    exact Dict.keys_insert _ _ _
  rw [(h.record hdistinct source _).editedNames_eq (record_wellFormed _ _ hformed)
    (record_distinct _ _ hdistinct), h.editedNames_eq hformed hdistinct, hkeys]
  by_cases hlisted : name ∈ names
  . by_cases hkey : name ∈ Dict.keys tree.children
    . simp [hlisted, hkey]
    . simp [hlisted, hkey, List.filter_append]
  . by_cases hkey : name ∈ Dict.keys tree.children
    . simp [hlisted, hkey]
    . simp [hlisted, hkey, List.filter_append]

theorem Replacing.layer_container? {tree : EditTree} (h : tree.Replacing)
    (hformed : tree.WellFormed) (base : Option Container) (name : Token) :
    ((((layer tree.children base).container? name).getD .empty)).listedOnce
      =
    ((Dict.get? tree.children name).getD blank).openedOver (base.bind (·.child name)) := by
  unfold Container.container?
  rw [layer_child]
  cases hget : Dict.get? tree.children name with
  | some child => exact (h.child hget).opened_apply (hformed.child hget) _
  | none => exact (blank_openedOver _).symm

theorem Replacing.layer_record_eq_put {tree : EditTree} (h : tree.Replacing)
    (hformed : tree.WellFormed) (hdistinct : tree.Distinct) {source value : Source} {name : Token}
    {rest : Locator} {base : Option Container}
    (hvalue : (((Dict.get? tree.children name).getD blank).record (.replace source) rest).apply
      (base.bind (·.child name)) = some value) :
    layer (tree.record (.replace source) (name :: rest)).children base
      =
    (layer tree.children base).put name value := by
  have hnames : (layer (tree.record (.replace source) (name :: rest)).children base).names
      = ((layer tree.children base).put name value).names := by
    unfold Container.put layer
    dsimp only
    rw [h.editedNames_record hformed hdistinct, eraseDups_of_nodup (editedNames_nodup _ _)]
  have hchild : (layer (tree.record (.replace source) (name :: rest)).children base).child
      = ((layer tree.children base).put name value).child := by
    funext other
    unfold Container.put
    dsimp only
    rw [record_cons, layer_child, layer_child]
    dsimp only [EditTree.children]
    rw [Dict.get?_insert]
    by_cases hname : name = other
    . subst hname
      rw [if_pos rfl, if_pos rfl]
      exact hvalue
    . rw [if_neg hname, if_neg hname]
  exact (Container.mk.injEq ..).mpr ⟨hnames, hchild⟩

theorem anyReplaces_record {tree : EditTree} (h : tree.Distinct) (source : Source) (name : Token)
    (rest : Locator) : anyReplaces (tree.record (.replace source) (name :: rest)).children := by
  rw [record_cons, anyReplaces_eq_any, List.any_eq_true]
  have hget := Dict.get?_insert tree.children name name
    (((Dict.get? tree.children name).getD blank).record (.replace source) rest)
  rw [if_pos rfl] at hget
  exact ⟨_, Dict.mem_of_get?_eq_some hget, record_replace_creates source rest (h.getD_child name)⟩

-- The induction is on the way down. What was edited there before shows through a layer like any
-- other source.
theorem Replacing.layer_record {tree : EditTree} (h : tree.Replacing) (hformed : tree.WellFormed)
    (hdistinct : tree.Distinct) (source : Source) (name : Token) (rest : Locator)
    (base : Option Container) :
    layer (tree.record (.replace source) (name :: rest)).children base
      =
    Container.putBelow source name rest (layer tree.children base) := by
  induction rest generalizing tree name base with
  | nil =>
    apply h.layer_record_eq_put hformed hdistinct
    rw [record_nil]
    unfold apply
    rfl
  | cons next rest ih =>
    apply h.layer_record_eq_put hformed hdistinct
    have hinner := hdistinct.getD_child name
    have hopened := Editor.edit_record_cons ((Dict.get? tree.children name).getD blank)
      (.replace source) next rest
    rw [apply_of_anyReplaces _ _ (anyReplaces_record hinner source next rest)]
    . unfold openedOver
      rw [hopened, Edit.opened_opened,
        ih (h.getD_child name) (hformed.getD_child name) hinner]
      rw [← Container.putBelow_listedOnce source next rest (Option.getD _ _),
        h.layer_container? hformed]
      rfl
    . rw [hopened, Edit.opened_opened]

end EditTree

namespace Editor

def Change.isReplacement (change : Change) : Bool :=
  (Edit.write change.source).isReplace

def Change.patch (c : Container) (change : Change) : Container :=
  change.source.elim c fun source => c.patch source change.place

theorem write_eq_replace {value : Option Source} (h : (Edit.write value).isReplace) :
    ∃ source, value = some source ∧ Edit.write value = .replace source := by
  rcases value with _ | ⟨_, _⟩ | _ | _ | _
  case none => simp [Edit.write, Edit.isReplace] at h
  case some.block => simp [Edit.write, Edit.isReplace] at h
  all_goals exact ⟨_, rfl, rfl⟩

theorem Valid.finish_eq_openedOver {editor : Editor} (h : editor.Valid)
    (hedited : editor.isEdited) :
    editor.finish = editor.edits.openedOver (editor.base.map Container.source) := by
  unfold EditTree.openedOver
  rw [h.root, h.finish_of_isEdited hedited]

theorem Valid.finish_listedOnce {editor : Editor} (h : editor.Valid) :
    editor.finish.listedOnce = editor.edits.openedOver (editor.base.map Container.source) := by
  cases hedited : editor.isEdited with
  | true =>
    rw [h.finish_eq_openedOver hedited]
    exact EditTree.openedOver_listedOnce _ _
  | false =>
    rw [h.blank hedited, EditTree.blank_openedOver]
    unfold finish
    rw [hedited]
    cases editor.base <;> rfl

theorem Valid.finish_set_eq_patch {editor : Editor} (h : editor.Valid)
    (hdistinct : editor.edits.Distinct) (hreplacing : editor.edits.Replacing) {change : Change}
    (hchange : change.isReplacement) :
    (editor.set change.place change.source).finish = change.patch editor.finish := by
  obtain ⟨place, value⟩ := change
  obtain ⟨source, hvalue, hwrite⟩ := write_eq_replace hchange
  dsimp only at hvalue hwrite ⊢
  subst hvalue
  change (editor.set place (some source)).finish = editor.finish.patch source place
  by_cases haccepts : accepts place (Edit.write (some source))
  . rw [(h.set _ _).finish_eq_openedOver (set_isEdited haccepts), set_edits haccepts, set_base,
      hwrite]
    cases place with
    | nil =>
      rw [hwrite] at haccepts
      cases source with
      | container names child =>
        rw [EditTree.record_nil]
        exact EditTree.layer_nil ⟨names, child⟩
      | _ => simp [accepts] at haccepts
    | cons name rest =>
      unfold EditTree.openedOver
      rw [edit_record_cons, Edit.opened_opened,
        hreplacing.layer_record h.wellFormed hdistinct source name rest]
      change Container.putBelow source name rest (editor.edits.openedOver _) = _
      rw [← h.finish_listedOnce, Container.putBelow_listedOnce]
      rfl
  . rw [set_of_not_accepts haccepts]
    rw [hwrite] at haccepts
    cases place with
    | nil =>
      cases source with
      | container names child => simp [accepts] at haccepts
      | _ => rfl
    | cons name rest => simp [accepts] at haccepts

theorem set_replacing {editor : Editor} (hreplacing : editor.edits.Replacing)
    (hdistinct : editor.edits.Distinct) {change : Change} (hchange : change.isReplacement) :
    (editor.set change.place change.source).edits.Replacing := by
  obtain ⟨source, _, hwrite⟩ := write_eq_replace hchange
  by_cases haccepts : accepts change.place (Edit.write change.source)
  . rw [set_edits haccepts, hwrite]
    exact hreplacing.record hdistinct source change.place
  . rw [set_of_not_accepts haccepts]
    exact hreplacing

theorem run_replacing (base : Option Container) {changes : List Change}
    (h : ∀ change ∈ changes, change.isReplacement) :
    ((new base).run changes).edits.Replacing := by
  induction changes using List.reverseRecOn with
  | nil => exact EditTree.replacing_blank
  | append_singleton changes change ih =>
    simp only [List.forall_mem_append, List.forall_mem_singleton] at h
    rw [run_concat]
    exact set_replacing (ih h.1) (run_distinct base changes) h.2

theorem finish_run_eq_foldl_patch (base : Option Container) (changes : List Change)
    (h : ∀ change ∈ changes, change.isReplacement) :
    ((new base).run changes).finish
      =
    changes.foldl (fun c change => change.patch c) (base.getD .empty) := by
  induction changes using List.reverseRecOn with
  | nil => rfl
  | append_singleton changes change ih =>
    simp only [List.forall_mem_append, List.forall_mem_singleton] at h
    rw [run_concat, List.foldl_append, ← ih h.1]
    exact ((new_valid base).run changes).finish_set_eq_patch (run_distinct base changes)
      (run_replacing base h.1) h.2

-- A container takes the place of what was recorded in finer places and is edited again, a leaf does
-- not take the place of the whole, and another leaf becomes a container on the way.
theorem finish_run_eq_foldl_patch_coarser :
    let leaf := fun n => some (Source.value (.int n))
    let base := Container.ofEntries [("b", leaf 1), ("c", leaf 2)]
    let changes : List Change := [
      ⟨["a", "x"], leaf 3⟩,
      ⟨["a"], some (Source.ofEntries [("w", leaf 4)])⟩,
      ⟨["a", "v"], leaf 5⟩,
      ⟨[], leaf 6⟩,
      ⟨["b", "u"], leaf 7⟩]
    (∀ change ∈ changes, change.isReplacement) ∧
      ((new (some base)).run changes).finish
        = changes.foldl (fun c change => change.patch c) base ∧
      ((new (some base)).run changes).finish.names = ["b", "c", "a"] ∧
      (((new (some base)).run changes).finish.container? "a").map Container.names
        = some ["w", "v"] := by
  intro leaf base changes
  have h : ∀ change ∈ changes, change.isReplacement := by decide
  have hpatched := finish_run_eq_foldl_patch (some base) changes h
  exact ⟨h, hpatched, by rw [hpatched]; rfl, by rw [hpatched]; rfl⟩

end Editor

end SceneTree
