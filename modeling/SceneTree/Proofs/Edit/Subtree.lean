import SceneTree.Proofs.Edit.Recorded

/-!
This module contains the theory of the parts of an edit tree: what is recorded at a place and below
it, what another edit makes of that, and how the part at a place decides what is read there.
-/

namespace SceneTree

namespace EditTree

theorem record_nil (value : Edit) (tree : EditTree) : tree.record value [] = node value [] := by
  cases tree with
  | node _ _ => rfl

theorem record_cons (value : Edit) (name : Token) (rest : Locator) (tree : EditTree) :
    tree.record value (name :: rest)
      =
    node tree.edit.opened
      (Dict.insert tree.children name
        (((Dict.get? tree.children name).getD blank).record value rest)) := by
  cases tree with
  | node edit children =>
    conv_lhs => unfold record
    rw [Dict.modify_eq_insert]
    rfl

theorem WellFormed.getD_child {tree : EditTree} (h : tree.WellFormed) (name : Token) :
    ((Dict.get? tree.children name).getD blank).WellFormed := by
  cases hget : Dict.get? tree.children name with
  | none => exact wellFormed_blank
  | some child => exact h.child hget

theorem Distinct.getD_child {tree : EditTree} (h : tree.Distinct) (name : Token) :
    ((Dict.get? tree.children name).getD blank).Distinct := by
  cases hget : Dict.get? tree.children name with
  | none => exact distinct_blank
  | some child => exact h.child hget

def inner? : EditTree → Locator → Option EditTree
  | tree, [] => some tree
  | tree, name :: rest => (Dict.get? tree.children name).bind (·.inner? rest)

def edit? (tree : EditTree) (place : Locator) : Option Edit :=
  (tree.inner? place).map edit

theorem inner?_nil (tree : EditTree) : tree.inner? [] = some tree := by
  unfold inner?
  rfl

theorem inner?_cons (tree : EditTree) (name : Token) (rest : Locator) :
    tree.inner? (name :: rest) = (Dict.get? tree.children name).bind (·.inner? rest) := by
  conv_lhs => unfold inner?

theorem edit?_nil (tree : EditTree) : tree.edit? [] = some tree.edit := by
  unfold edit?
  rw [inner?_nil]
  rfl

theorem edit?_cons (tree : EditTree) (name : Token) (rest : Locator) :
    tree.edit? (name :: rest) = (Dict.get? tree.children name).bind (·.edit? rest) := by
  unfold edit?
  rw [inner?_cons]
  cases Dict.get? tree.children name <;> rfl

theorem getD_edit? (tree : EditTree) (place : Locator) :
    (tree.edit? place).getD .keep = tree.editAt place := by
  induction place generalizing tree with
  | nil =>
    rw [edit?_nil, editAt_nil]
    rfl
  | cons name rest ih =>
    rw [edit?_cons, editAt_cons]
    cases Dict.get? tree.children name with
    | none => exact (blank_editAt rest).symm
    | some child => exact ih child

theorem inner?_append (tree : EditTree) (above below : Locator) :
    tree.inner? (above ++ below) = (tree.inner? above).bind (·.inner? below) := by
  induction above generalizing tree with
  | nil => rw [inner?_nil]; rfl
  | cons name rest ih =>
    simp only [List.cons_append, inner?_cons, Option.bind_assoc, ih]

theorem record_inner?_append (value : Edit) (above below : Locator) (tree : EditTree) :
    (tree.record value (above ++ below)).inner? above
      =
    some (((tree.inner? above).getD blank).record value below) := by
  induction above generalizing tree with
  | nil => rw [inner?_nil, inner?_nil]; rfl
  | cons name rest ih =>
    obtain ⟨edit, children⟩ := tree
    rw [List.cons_append, record_cons, inner?_cons, inner?_cons]
    simp only [EditTree.children, Dict.get?_insert, if_true, Option.bind_some, ih]
    cases hget : Dict.get? children name with
    | some child => rfl
    | none => cases rest <;> rfl

theorem record_inner?_of_not_isRelatedTo (value : Edit) {place other : Locator} (tree : EditTree)
    (h : ¬ other.isRelatedTo place) :
    (tree.record value place).inner? other = tree.inner? other := by
  induction place generalizing tree other with
  | nil => simp [Locator.isRelatedTo_iff] at h
  | cons name rest ih =>
    cases other with
    | nil => simp [Locator.isRelatedTo_iff] at h
    | cons first below =>
      obtain ⟨edit, children⟩ := tree
      rw [record_cons, inner?_cons, inner?_cons]
      simp only [EditTree.children, Dict.get?_insert]
      by_cases hname : name = first
      . subst hname
        have hrest : ¬ Locator.isRelatedTo below rest := by
          simpa [Locator.isRelatedTo] using h
        rw [if_pos rfl, Option.bind_some, ih _ hrest]
        cases hget : Dict.get? children name with
        | some child => rfl
        | none =>
          cases below with
          | nil => simp [Locator.isRelatedTo_iff] at hrest
          | cons second below => rfl
      . rw [if_neg hname]

theorem record_edit? (value : Edit) (place other : Locator) (tree : EditTree) :
    (tree.record value place).edit? other
      =
    if other = place then some value
    else if other.isUnder place then none
    else if place.isUnder other then some (tree.editAt other).opened
    else tree.edit? other := by
  unfold edit?
  by_cases hunder : other.isUnder place
  . obtain ⟨rest, hrest⟩ := Locator.exists_eq_append_of_isUnder hunder
    have hplace := record_inner?_append value place [] tree
    rw [List.append_nil, record_nil] at hplace
    rw [hrest, inner?_append, hplace]
    cases rest with
    | nil => simp [inner?_nil, EditTree.edit]
    | cons name rest => simp [inner?_cons, EditTree.children, Locator.append_isUnder]
  . have hne : other ≠ place := fun heq => hunder (heq ▸ Locator.isUnder_refl other)
    rw [if_neg hne, if_neg hunder]
    by_cases hover : place.isUnder other
    . obtain ⟨rest, hrest⟩ := Locator.exists_eq_append_of_isUnder hover
      rw [if_pos hover, hrest, record_inner?_append, ← getD_edit?]
      unfold edit?
      cases rest with
      | nil => exact absurd (hrest.trans (List.append_nil other)).symm hne
      | cons name rest =>
        rw [record_cons]
        cases tree.inner? other <;> rfl
    . rw [if_neg hover, record_inner?_of_not_isRelatedTo]
      rw [Locator.isRelatedTo_iff, not_or]
      exact ⟨hunder, hover⟩

theorem inner?_editAt {tree inner : EditTree} {above : Locator}
    (h : tree.inner? above = some inner) (rest : Locator) :
    tree.editAt (above ++ rest) = inner.editAt rest := by
  rw [← getD_edit?, ← getD_edit?]
  unfold edit?
  rw [inner?_append, h]
  rfl

theorem WellFormed.inner {tree inner : EditTree} (h : tree.WellFormed) {place : Locator}
    (hinner : tree.inner? place = some inner) : inner.WellFormed := by
  induction place generalizing tree with
  | nil =>
    rw [inner?_nil] at hinner
    cases hinner
    exact h
  | cons name rest ih =>
    rw [inner?_cons] at hinner
    obtain ⟨child, hchild, hinner⟩ := Option.bind_eq_some_iff.1 hinner
    exact ih (h.child hchild) hinner

theorem Distinct.inner {tree inner : EditTree} (h : tree.Distinct) {place : Locator}
    (hinner : tree.inner? place = some inner) : inner.Distinct := by
  induction place generalizing tree with
  | nil =>
    rw [inner?_nil] at hinner
    cases hinner
    exact h
  | cons name rest ih =>
    rw [inner?_cons] at hinner
    obtain ⟨child, hchild, hinner⟩ := Option.bind_eq_some_iff.1 hinner
    exact ih (h.child hchild) hinner

theorem record_editAt_of_not_isRelatedTo (value : Edit) {place other : Locator} (tree : EditTree)
    (h : ¬ other.isRelatedTo place) :
    (tree.record value place).editAt other = tree.editAt other := by
  rw [← getD_edit?, ← getD_edit?]
  unfold edit?
  rw [record_inner?_of_not_isRelatedTo value tree h]

/--
Whether there is a source at an edited place whatever was there before, unless a place above it is
shut.
-/
def createsAt (tree : EditTree) (place : Locator) : Prop :=
  ∃ rest, (tree.editAt (place ++ rest)).isReplace

theorem record_createsAt_of_not_isRelatedTo (value : Edit) {place other : Locator}
    (tree : EditTree) (h : ¬ other.isRelatedTo place) :
    (tree.record value place).createsAt other ↔ tree.createsAt other := by
  unfold createsAt
  apply exists_congr
  intro rest
  rw [record_editAt_of_not_isRelatedTo value tree (Locator.not_isRelatedTo_append h rest)]

theorem record_createsAt (value : Edit) (place rest : Locator) (tree : EditTree)
    (h : value.isReplace ∨ rest = []) :
    (tree.record value (place ++ rest)).createsAt place ↔ value.isReplace := by
  unfold createsAt
  constructor
  . rintro ⟨below, hbelow⟩
    rcases h with h | h
    . exact h
    . subst h
      rw [List.append_nil, record_editAt] at hbelow
      split at hbelow
      . exact hbelow
      . rw [if_pos (Locator.append_isUnder place below)] at hbelow
        cases hbelow
  . intro hvalue
    refine ⟨rest, ?_⟩
    rw [record_editAt, if_pos rfl]
    exact hvalue

end EditTree

end SceneTree
