import SceneTree.Edit.Tree

/-!
This module contains the theory of reading an edited tree at a place: edits of containers alone have
edits below them, a recorded edit decides what is read at its place and below, and it changes
nothing at places that are not related to its own.
-/

namespace SceneTree

namespace Edit

def container? : Edit → Option Source → Option Container
  | keep, below => below.bind Source.container?
  | replace source, _ => source.container?
  | delete, _ => none

def source? : Edit → Option Source
  | replace source => some source
  | _ => none

theorem opened_opened (edit : Edit) : edit.opened.opened = edit.opened := by
  cases edit with
  | keep => rfl
  | replace source => cases source <;> rfl
  | delete => rfl

-- What an edit opens where there was no container is one without children.
theorem opened_container?_child (edit : Edit) (below : Option Source) (name : Token) :
    ((edit.opened.container? below).bind fun c => c.child name)
      =
    (edit.container? below).bind fun c => c.child name := by
  cases edit with
  | keep => rfl
  | replace source => cases source <;> rfl
  | delete => rfl

end Edit

namespace EditTree

/--
Only places that are kept, or replaced by a container, have edits below them.
-/
inductive WellFormed : EditTree → Prop where
  | node {edit : Edit} {children : List (Token × EditTree)}
      (opened : edit.opened = edit ∨ children = [])
      (below : ∀ entry ∈ children, WellFormed entry.2) : WellFormed (node edit children)

def at? (tree : EditTree) (below : Option Source) (place : Locator) : Option Source :=
  (tree.apply below).bind (·.at? place)

theorem wellFormed_blank : WellFormed blank := by
  apply WellFormed.node
  . exact .inl rfl
  . simp

theorem WellFormed.child {tree child : EditTree} {name : Token} (h : tree.WellFormed)
    (hchild : Dict.get? tree.children name = some child) : child.WellFormed := by
  cases h with
  | node _ below => exact below _ (Dict.mem_of_get?_eq_some hchild)

theorem applyChild_eq (children : List (Token × EditTree)) (base : Option Container)
    (name : Token) :
    applyChild children base name
      =
    match Dict.get? children name with
    | some tree => tree.apply (base.bind (·.child name))
    | none => base.bind (·.child name) := by
  induction children with
  | nil => simp [applyChild]
  | cons entry rest ih =>
    obtain ⟨key, tree⟩ := entry
    unfold applyChild Dict.get?
    split
    . rfl
    . exact ih

mutual

-- The recursion is that of `replacesBelow` and `anyReplaces`.
theorem apply_none_of_not_replacesBelow (tree : EditTree) (hedit : tree.edit.isReplace = false)
    (hbelow : tree.replacesBelow = false) : tree.apply none = none :=
  match tree with
  | node .delete _ => by unfold apply; rfl
  | node (.replace _) _ => by simp [edit, Edit.isReplace] at hedit
  | node .keep children => by
    unfold replacesBelow at hbelow
    simp [apply, hbelow]

theorem applyChild_none_of_not_anyReplaces (children : List (Token × EditTree))
    (h : anyReplaces children = false) (name : Token) : applyChild children none name = none :=
  match children with
  | [] => by simp [applyChild]
  | (key, node edit below) :: rest => by
    unfold anyReplaces at h
    simp only [Bool.or_eq_false_iff] at h
    obtain ⟨⟨hedit, hbelow⟩, hrest⟩ := h
    unfold applyChild
    split
    . exact apply_none_of_not_replacesBelow (node edit below) hedit hbelow
    . exact applyChild_none_of_not_anyReplaces rest hrest name

end

@[simp]
theorem at?_nil (tree : EditTree) (below : Option Source) :
    tree.at? below [] = tree.apply below := by
  unfold at?
  cases tree.apply below with
  | none => rfl
  | some source => exact Source.at?_nil source

-- Where nothing is put below a place that is kept and holds no container, nothing is read there.
theorem apply_keep_at?_cons (children : List (Token × EditTree)) (below : Option Source)
    (name : Token) (rest : Locator) :
    ((node .keep children).apply below).bind (·.at? (name :: rest))
      =
    (applyChild children (below.bind Source.container?) name).bind (·.at? rest) := by
  unfold apply
  split
  . simp [Source.at?_cons, Source.container?]
  . next hbelow =>
    have hnone : below.bind Source.container? = none := by
      cases below with
      | none => rfl
      | some source =>
        cases source with
        | container names child => exact absurd rfl (hbelow names child)
        | _ => rfl
    split
    . simp [Source.at?_cons, Source.container?, hnone]
    . next hreplaces =>
      simp only [Bool.not_eq_true] at hreplaces
      rw [hnone, applyChild_none_of_not_anyReplaces children hreplaces]
      cases below with
      | none => rfl
      | some source =>
        rw [Option.bind_some] at hnone
        simp [Source.at?_cons, hnone]

theorem at?_cons {tree : EditTree} (h : tree.WellFormed) (below : Option Source) (name : Token)
    (rest : Locator) :
    tree.at? below (name :: rest)
      =
    (applyChild tree.children (tree.edit.container? below) name).bind (·.at? rest) := by
  cases h with
  | @node edit children opened _ =>
    unfold at?
    cases edit with
    | keep => exact apply_keep_at?_cons children below name rest
    | replace source =>
      cases children with
      | nil =>
        simp [apply, EditTree.edit, EditTree.children, Edit.container?, applyChild,
          Source.at?_cons, Option.bind_assoc]
      | cons first others =>
        simp [apply, EditTree.edit, EditTree.children, Edit.container?, Source.at?_cons,
          Source.container?]
    | delete =>
      have : children = [] := by
        rcases opened with h | h
        . cases h
        . exact h
      subst this
      simp [apply, EditTree.edit, EditTree.children, Edit.container?, applyChild]

theorem blank_at?_cons (below : Option Source) (name : Token) (rest : Locator) :
    blank.at? below (name :: rest) = below.bind (·.at? (name :: rest)) := by
  rw [at?_cons wellFormed_blank]
  simp [blank, EditTree.edit, EditTree.children, Edit.container?, applyChild, Source.at?_cons,
    Option.bind_assoc]

theorem record_wellFormed (value : Edit) (place : Locator) {tree : EditTree}
    (h : tree.WellFormed) : (tree.record value place).WellFormed := by
  induction place generalizing tree with
  | nil =>
    cases tree with
    | node edit children =>
      unfold record
      apply WellFormed.node
      . exact .inr rfl
      . simp
  | cons name rest ih =>
    cases h with
    | @node edit children opened below =>
      unfold record
      apply WellFormed.node
      . exact .inl edit.opened_opened
      . intro entry hentry
        rw [Dict.modify_eq_insert] at hentry
        rcases Dict.eq_or_mem_of_mem_insert hentry with hentry | hentry
        . subst hentry
          apply ih
          cases hchild : Dict.get? children name with
          | none => exact wellFormed_blank
          | some child => exact below _ (Dict.mem_of_get?_eq_some hchild)
        . exact below entry hentry

theorem record_at?_cons (value : Edit) (name : Token) (place : Locator) {tree : EditTree}
    (h : tree.WellFormed) (below : Option Source) (other : Token) (rest : Locator) :
    (tree.record value (name :: place)).at? below (other :: rest)
      =
    if name = other then
      (((Dict.get? tree.children name).getD blank).record value place).at?
        ((tree.edit.container? below).bind (·.child name)) rest
    else tree.at? below (other :: rest) := by
  rw [at?_cons (record_wellFormed value _ h), at?_cons h]
  cases tree with
  | node edit children =>
    simp only [record, EditTree.edit, EditTree.children]
    rw [applyChild_eq, Dict.get?_modify]
    by_cases hname : name = other
    . subst hname
      simp only [if_true]
      rw [Edit.opened_container?_child]
      rfl
    . simp only [hname, if_false]
      rw [applyChild_eq, Edit.opened_container?_child]

theorem record_at?_of_isUnder {value : Edit} (hvalue : value ≠ .keep) (place : Locator)
    {tree : EditTree} (h : tree.WellFormed) (below : Option Source) (rest : Locator) :
    (tree.record value place).at? below (place ++ rest) = value.source?.bind (·.at? rest) := by
  induction place generalizing tree below with
  | nil =>
    cases tree with
    | node edit children =>
      unfold record at?
      cases value with
      | keep => exact absurd rfl hvalue
      | replace source => rfl
      | delete => rfl
  | cons name place ih =>
    rw [List.cons_append, record_at?_cons value name place h, if_pos rfl]
    apply ih
    cases hchild : Dict.get? tree.children name with
    | none => exact wellFormed_blank
    | some child => exact h.child hchild

theorem record_at?_of_not_isRelatedTo (value : Edit) {place other : Locator} {tree : EditTree}
    (h : tree.WellFormed) (below : Option Source) (hother : ¬ other.isRelatedTo place) :
    (tree.record value place).at? below other = tree.at? below other := by
  rw [Locator.isRelatedTo_iff, not_or] at hother
  obtain ⟨hover, hunder⟩ := hother
  induction place generalizing tree below other with
  | nil => simp at hover
  | cons name place ih =>
    cases other with
    | nil => simp at hunder
    | cons first other =>
      rw [record_at?_cons value name place h]
      split
      . next hname =>
        subst hname
        simp only [Locator.cons_isUnder_cons, beq_self_eq_true, Bool.true_and] at hover hunder
        rw [at?_cons h, applyChild_eq]
        cases hchild : Dict.get? tree.children name with
        | none =>
          -- The new child is read at a place inside it, where it makes no difference.
          rw [Option.getD_none, ih wellFormed_blank _ hover hunder]
          cases other with
          | nil => simp at hunder
          | cons second other => exact blank_at?_cons _ second other
        | some child => exact ih (h.child hchild) _ hover hunder
      . rfl

end EditTree

end SceneTree
