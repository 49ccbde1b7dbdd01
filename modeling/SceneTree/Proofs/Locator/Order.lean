import SceneTree.Locator

/-!
This module contains the order of locators next to the relation of a place to those above it. A
locator stands before all that are under it, and whatever stands between them is under it as well.
-/

namespace SceneTree.Locator

theorem eq_of_not_lt {a b : Locator} (hab : ¬ a < b) (hba : ¬ b < a) : a = b :=
  List.le_antisymm hba hab

theorem not_lt_of_isUnder {locator top : Locator} (h : locator.isUnder top) : ¬ locator < top := by
  induction top generalizing locator with
  | nil => exact List.not_lt_nil locator
  | cons name top ih =>
    cases locator with
    | nil => simp at h
    | cons other locator =>
      simp only [cons_isUnder_cons, Bool.and_eq_true, beq_iff_eq] at h
      obtain ⟨hname, hunder⟩ := h
      subst hname
      rw [List.cons_lt_cons_iff, not_or]
      exact ⟨String.lt_irrefl name, fun hlt => ih hunder hlt.2⟩

theorem lt_of_isUnder {locator top : Locator} (h : locator.isUnder top) (hne : locator ≠ top) :
    top < locator :=
  Decidable.byContradiction fun hlt => hne (eq_of_not_lt (not_lt_of_isUnder h) hlt)

-- The induction is on the place above: both others start with its names.
theorem isUnder_of_between {top middle locator : Locator} (hfirst : ¬ middle < top)
    (hlast : ¬ locator < middle) (h : locator.isUnder top) : middle.isUnder top := by
  induction top generalizing middle locator with
  | nil => exact isUnder_nil middle
  | cons name top ih =>
    cases locator with
    | nil => simp at h
    | cons other locator =>
      simp only [cons_isUnder_cons, Bool.and_eq_true, beq_iff_eq] at h
      obtain ⟨hname, hunder⟩ := h
      subst hname
      cases middle with
      | nil => exact absurd (List.nil_lt_cons name top) hfirst
      | cons between middle =>
        rw [List.cons_lt_cons_iff, not_or] at hfirst hlast
        have hbetween : name = between := String.le_antisymm hfirst.1 hlast.1
        subst hbetween
        rw [cons_isUnder_cons, beq_self_eq_true, Bool.true_and]
        exact ih (fun hlt => hfirst.2 ⟨rfl, hlt⟩) (fun hlt => hlast.2 ⟨rfl, hlt⟩) hunder

end SceneTree.Locator
