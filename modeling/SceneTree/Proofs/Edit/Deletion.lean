import SceneTree.Proofs.Edit.Recorded

/-!
This module contains the theory of deletions in a history of changes. A deletion removes what is at
its place and below it. Above the place a leaf stays, and nothing comes to be, unless the deletion
goes below a place that another change emptied or gave a leaf.
-/

namespace SceneTree

namespace Editor

def lastRelated? (changes : List Change) (place : Locator) : Option Change :=
  changes.reverse.find? fun change => change.isAccepted && place.isRelatedTo change.place

def isShut (changes : List Change) (place : Locator) : Bool :=
  match lastRelated? changes place with
  | some change => change.place == place && (Edit.write change.source).isShut
  | none => false

theorem isShut_concat (changes : List Change) (change : Change) (place : Locator) :
    isShut (changes ++ [change]) place
      =
    if change.isAccepted && place.isRelatedTo change.place then
      change.place == place && (Edit.write change.source).isShut
    else isShut changes place := by
  unfold isShut lastRelated?
  rw [List.reverse_concat, List.find?_cons]
  cases change.isAccepted && place.isRelatedTo change.place <;> rfl

theorem editAt_run_concat (base : Option Container) (changes : List Change) (change : Change)
    (place : Locator) :
    ((new base).run (changes ++ [change])).edits.editAt place
      =
    if change.isAccepted then
      (((new base).run changes).edits.record (Edit.write change.source) change.place).editAt place
    else ((new base).run changes).edits.editAt place := by
  rw [run_concat]
  unfold Change.isAccepted
  split
  . next haccepted => rw [set_edits haccepted]
  . next haccepted => rw [set_of_not_accepts haccepted]

theorem isShut_editAt_run (base : Option Container) (changes : List Change) (place : Locator) :
    (((new base).run changes).edits.editAt place).isShut = isShut changes place := by
  induction changes using List.reverseRecOn with
  | nil => exact congrArg Edit.isShut (EditTree.blank_editAt place)
  | append_singleton changes change ih =>
    rw [editAt_run_concat, isShut_concat]
    cases change.isAccepted with
    | true =>
      rw [if_pos rfl, EditTree.isShut_record_editAt, ih]
      rfl
    | false => exact ih

theorem finish_delete_at?_eq_leaf_iff (base : Option Container) (changes : List Change)
    {place : Locator} (hplace : place ≠ []) {deletion : Option Source}
    (hdeletion : Edit.write deletion = .delete) {other : Locator} (hother : ¬ other.isUnder place)
    {leaf : Source} (hleaf : leaf.container? = none)
    (hread : ((new base).run changes).finish.at? other = some leaf) :
    (((new base).run changes).set place deletion).finish.at? other = some leaf
      ↔
    ∀ step, step.isOnWay other place → isShut changes step = false := by
  have hvalid := (new_valid base).run changes
  by_cases hunder : place.isUnder other
  . cases other with
    | nil =>
      have hroot : leaf.container?.isSome := by
        rw [Container.at?, Source.at?_nil, Option.some.injEq] at hread
        rw [← hread]
        rfl
      rw [hleaf] at hroot
      cases hroot
    | cons name rest =>
      have haccepts : accepts place (Edit.write deletion) := by
        cases place with
        | nil => exact absurd rfl hplace
        | cons first more => rfl
      have hne : place ≠ name :: rest := by
        intro heq
        exact hother (heq ▸ Locator.isUnder_refl place)
      rw [hvalid.finish_at?_cons] at hread
      rw [(hvalid.set place deletion).finish_at?_cons, set_edits haccepts, set_base, hdeletion]
      rw [EditTree.record_delete_at?_eq_leaf_iff hvalid.wellFormed (run_distinct base changes)
        hunder hne hleaf hread]
      simp only [isShut_editAt_run]
  . have hrelated : ¬ other.isRelatedTo place := by
      rw [Locator.isRelatedTo_iff, not_or]
      exact ⟨hother, hunder⟩
    rw [hvalid.set_finish_at?_of_not_isRelatedTo deletion hrelated]
    constructor
    . intro _ step hway
      simp only [Locator.isOnWay, Bool.and_eq_true] at hway
      exact absurd (Locator.isUnder_trans hway.1.2 hway.1.1) hunder
    . intro _
      exact hread

-- Below a leaf of the base there was a deletion already, which another deletion beside it leaves
-- shut.
theorem finish_delete_at?_eq_leaf_iff_beside :
    let leaf := Source.value (.int 3)
    let base := Container.ofEntries [("b", some leaf)]
    let changes : List Change := [⟨["b", "x"], none⟩]
    (["b", "z"] : Locator) ≠ [] ∧ Edit.write none = .delete ∧
      ¬ Locator.isUnder ["b"] ["b", "z"] ∧ leaf.container? = none ∧
      ((new (some base)).run changes).finish.at? ["b"] = some leaf ∧
      (((new (some base)).run changes).set ["b", "z"] none).finish.at? ["b"] = some leaf := by
  intro leaf base changes
  have hplace : (["b", "z"] : Locator) ≠ [] := by decide
  have hother : ¬ Locator.isUnder ["b"] ["b", "z"] := by decide
  have hread : ((new (some base)).run changes).finish.at? ["b"] = some leaf := rfl
  refine ⟨hplace, rfl, hother, rfl, hread, ?_⟩
  apply (finish_delete_at?_eq_leaf_iff (some base) changes hplace rfl hother rfl hread).2
  rw [Locator.forall_isOnWay_cons]
  intro step hway
  rcases step with _ | ⟨first, _ | ⟨second, rest⟩⟩
  . rfl
  . simp only [Locator.isOnWay, Locator.cons_isUnder_cons, Bool.and_eq_true, beq_iff_eq] at hway
    simp [hway.1.2.1] at hway
  . simp [Locator.isOnWay] at hway

-- A deletion below a deleted place opens it, and with it the leaf above. A written leaf is lost by
-- the first deletion below it.
theorem finish_delete_at?_ne_leaf :
    let leaf := Source.value (.int 3)
    let base := Container.ofEntries [("b", some leaf)]
    let emptied := (new (some base)).run [⟨["b", "x"], none⟩]
    let written := (new none).run [⟨["a"], some leaf⟩]
    emptied.finish.at? ["b"] = some leaf ∧
      (emptied.set ["b", "x", "y"] none).finish.at? ["b"] ≠ some leaf ∧
      written.finish.at? ["a"] = some leaf ∧
      (written.set ["a", "x"] none).finish.at? ["a"] ≠ some leaf := by
  intro leaf base emptied written
  have hemptied : ((emptied.set ["b", "x", "y"] none).finish.at? ["b"]).map Source.kind
      = some "container" := rfl
  have hwritten : ((written.set ["a", "x"] none).finish.at? ["a"]).map Source.kind
      = some "container" := rfl
  have hleaf : (some leaf).map Source.kind ≠ some "container" := by decide
  refine ⟨rfl, ?_, rfl, ?_⟩
  . intro heq
    exact hleaf (heq ▸ hemptied)
  . intro heq
    exact hleaf (heq ▸ hwritten)

/--
Whether a place was emptied and a later change went below it: the last change at or above the place
was made at the place itself, and others below it followed.
-/
def IsReopened (changes : List Change) (place : Locator) : Prop :=
  (∃ change, lastDeciding? changes place = some change ∧ change.place = place) ∧
    ∃ change ∈ afterDeciding changes place, change.isAccepted ∧ change.place.isUnder place

theorem lastDeciding?_concat (changes : List Change) (change : Change) (place : Locator) :
    lastDeciding? (changes ++ [change]) place
      =
    if change.decides place then some change else lastDeciding? changes place := by
  unfold lastDeciding?
  rw [List.reverse_concat, List.find?_cons]
  cases change.decides place <;> rfl

theorem afterDeciding_concat (changes : List Change) (change : Change) (place : Locator) :
    afterDeciding (changes ++ [change]) place
      =
    if change.decides place then [] else change :: afterDeciding changes place := by
  unfold afterDeciding
  rw [List.reverse_concat, List.takeWhile_cons]
  cases change.decides place <;> rfl

theorem editAt_run_ne_keep_iff (base : Option Container) (changes : List Change)
    (place : Locator) :
    ((new base).run changes).edits.editAt place ≠ .keep
      ↔
    ∃ change, lastDeciding? changes place = some change ∧ change.place = place := by
  induction changes using List.reverseRecOn with
  | nil =>
    have hblank : ((new base).run []).edits.editAt place = .keep := EditTree.blank_editAt place
    simp [hblank, lastDeciding?]
  | append_singleton changes change ih =>
    rw [editAt_run_concat, lastDeciding?_concat]
    unfold Change.decides
    cases change.isAccepted with
    | false => simpa using ih
    | true =>
      rw [if_pos rfl, EditTree.record_editAt]
      by_cases heq : place = change.place
      . simp [← heq, Locator.isUnder_refl, write_ne_keep]
      . rw [if_neg heq]
        by_cases hunder : place.isUnder change.place
        . simp [hunder, Ne.symm heq]
        . rw [if_neg hunder, Bool.true_and, if_neg hunder, ← ih]
          split
          . rw [ne_eq, Edit.opened_eq_keep_iff]
          . rfl

theorem forall_editAt_run_eq_keep_iff (base : Option Container) (changes : List Change)
    (place : Locator) :
    (∀ above, place.isUnder above → ((new base).run changes).edits.editAt above = .keep)
      ↔
    lastDeciding? changes place = none := by
  induction changes using List.reverseRecOn with
  | nil =>
    have hblank : ∀ above, ((new base).run []).edits.editAt above = .keep := EditTree.blank_editAt
    simp [hblank, lastDeciding?]
  | append_singleton changes change ih =>
    rw [lastDeciding?_concat]
    simp only [editAt_run_concat]
    unfold Change.decides
    cases change.isAccepted with
    | false => simpa using ih
    | true =>
      simp only [if_true, Bool.true_and]
      by_cases hunder : place.isUnder change.place
      . rw [if_pos hunder]
        constructor
        . intro h
          have hplace := h change.place hunder
          rw [EditTree.record_editAt, if_pos rfl] at hplace
          exact absurd hplace (write_ne_keep change.source)
        . intro h
          cases h
      . rw [if_neg hunder, ← ih]
        apply forall₂_congr
        intro above habove
        have hne : above ≠ change.place := fun heq => hunder (heq ▸ habove)
        have hout : ¬ above.isUnder change.place := fun h =>
          hunder (Locator.isUnder_trans habove h)
        rw [EditTree.record_editAt, if_neg hne, if_neg hout]
        split
        . exact Edit.opened_eq_keep_iff _
        . rfl

theorem trims_editAt_run (base : Option Container) {changes : List Change}
    (hdelete : ∀ change ∈ changes, Edit.write change.source = .delete) (place : Locator) :
    (((new base).run changes).edits.editAt place).Trims := by
  induction changes using List.reverseRecOn with
  | nil => exact .inl (EditTree.blank_editAt place)
  | append_singleton changes change ih =>
    simp only [List.forall_mem_append, List.forall_mem_singleton] at hdelete
    rw [editAt_run_concat]
    split
    . rw [EditTree.record_editAt]
      split
      . exact .inr (.inl hdelete.2)
      . split
        . exact .inl rfl
        . split
          . exact (ih hdelete.1).opened
          . exact ih hdelete.1
    . exact ih hdelete.1

-- Of the places with an edit, those are replaced that were opened again.
theorem isReplace_editAt_run_iff (base : Option Container) {changes : List Change}
    (hdelete : ∀ change ∈ changes, Edit.write change.source = .delete) (place : Locator) :
    (((new base).run changes).edits.editAt place).isReplace ↔ IsReopened changes place := by
  induction changes using List.reverseRecOn with
  | nil =>
    have hblank : ((new base).run []).edits.editAt place = .keep := EditTree.blank_editAt place
    simp [hblank, IsReopened, lastDeciding?, Edit.isReplace]
  | append_singleton changes change ih =>
    simp only [List.forall_mem_append, List.forall_mem_singleton] at hdelete
    have hbefore := ih hdelete.1
    have hedited := editAt_run_ne_keep_iff base changes place
    unfold IsReopened at hbefore ⊢
    rw [editAt_run_concat, lastDeciding?_concat, afterDeciding_concat]
    unfold Change.decides
    cases haccepted : change.isAccepted with
    | false => simp [hbefore, haccepted]
    | true =>
      rw [if_pos rfl, EditTree.record_editAt, Bool.true_and]
      by_cases hunder : place.isUnder change.place
      . have hreplace : ((if place = change.place then Edit.write change.source
            else .keep : Edit).isReplace : Bool) = false := by
          rw [hdelete.2]
          split
          . rfl
          . rfl
        simp [hunder, hreplace]
      . have hne : place ≠ change.place := by
          intro heq
          exact hunder (heq ▸ Locator.isUnder_refl place)
        rw [if_neg hne, if_neg hunder, if_neg hunder, if_neg hunder, ← hedited]
        by_cases hover : change.place.isUnder place
        . rw [if_pos hover, Edit.isReplace_opened, Edit.isReplace_or_isShut_iff]
          simp [hover, haccepted]
        . rw [if_neg hover, hbefore, ← hedited]
          simp [hover]

theorem lastDeciding?_nil {changes : List Change}
    (hdelete : ∀ change ∈ changes, Edit.write change.source = .delete) :
    lastDeciding? changes [] = none := by
  unfold lastDeciding?
  rw [List.find?_eq_none]
  intro change hchange hdecides
  simp only [Change.decides, Change.isAccepted, Bool.and_eq_true] at hdecides
  rw [hdelete change (List.mem_reverse.1 hchange)] at hdecides
  cases hplace : change.place with
  | nil => simp [hplace, accepts] at hdecides
  | cons name rest => simp [hplace] at hdecides

theorem finish_run_deletions_isSome_iff (base : Option Container) (changes : List Change)
    (hdelete : ∀ change ∈ changes, Edit.write change.source = .delete) (place : Locator) :
    (((new base).run changes).finish.at? place).isSome
      ↔
    ((base.getD .empty).at? place).isSome ∧ lastDeciding? changes place = none ∨
      ∃ inner, inner.isUnder place ∧ IsReopened changes inner := by
  cases place with
  | nil =>
    have hroot : ∀ container : Container, (container.at? []).isSome := by
      intro container
      rw [Container.at?, Source.at?_nil]
      rfl
    simp [hroot, lastDeciding?_nil hdelete]
  | cons name rest =>
    have hvalid := (new_valid base).run changes
    have hbase : ((base.map Container.source).bind (·.at? (name :: rest))).isSome
        = ((base.getD .empty).at? (name :: rest)).isSome := by
      cases base with
      | none =>
        rw [Option.getD_none, Container.at?_cons]
        rfl
      | some container => rfl
    rw [hvalid.finish_at?_cons, run_base]
    rw [EditTree.at?_isSome_iff hvalid.wellFormed (run_distinct base changes)
      (trims_editAt_run base hdelete), forall_editAt_run_eq_keep_iff, hbase, or_comm, and_comm]
    simp only [isReplace_editAt_run_iff base hdelete]

-- A place that nothing was at is reopened beside one that no deletion concerns.
theorem finish_run_deletions_isSome_iff_reopened :
    let base := Container.ofEntries [("b", some (.value (.int 3)))]
    let changes : List Change := [⟨["a"], none⟩, ⟨["a", "x"], some .block⟩]
    (∀ change ∈ changes, Edit.write change.source = .delete) ∧
      (((new (some base)).run changes).finish.at? ["a"]).isSome ∧
      (((new (some base)).run changes).finish.at? ["b"]).isSome := by
  intro base changes
  have hdelete : ∀ change ∈ changes, Edit.write change.source = .delete := by
    simp [changes, Edit.write]
  have hreopened : IsReopened changes ["a"] := by
    refine ⟨⟨⟨["a"], none⟩, rfl, rfl⟩, ⟨["a", "x"], some .block⟩, ?_, rfl, rfl⟩
    exact List.mem_cons_self
  refine ⟨hdelete, ?_, ?_⟩
  . apply (finish_run_deletions_isSome_iff (some base) changes hdelete ["a"]).2
    exact .inr ⟨["a"], Locator.isUnder_refl _, hreopened⟩
  . apply (finish_run_deletions_isSome_iff (some base) changes hdelete ["b"]).2
    exact .inl ⟨rfl, rfl⟩

theorem finish_run_deletions_at?_isSome :
    let changes : List Change := [⟨["a"], none⟩, ⟨["a", "b"], none⟩]
    (∀ change ∈ changes, Edit.write change.source = .delete) ∧
      (((new (some .empty)).run changes).finish.at? ["a"]).isSome ∧
      (Container.empty.at? ["a"]).isSome = false := by
  intro changes
  have hdelete : ∀ change ∈ changes, Edit.write change.source = .delete := by
    simp [changes, Edit.write]
  exact ⟨hdelete, rfl, rfl⟩

end Editor

end SceneTree
