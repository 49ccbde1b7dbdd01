import Mathlib.Data.List.Sort
import SceneTree.Proofs.Locator.Minimal

/-!
This module contains the proof that locator sets are canonical: two sets that cover the same places
are the same, in whatever way they were made. What is known of coverage therefore decides equations
between sets, and makes the union a join, with the empty set below all others and the universal one
above them.
-/

namespace SceneTree.LocatorSet

-- A locator is the topmost place that is covered around it, in the one set as in the other.
theorem Minimal.mem_of_covers {set other : LocatorSet} (h : set.Minimal) (hother : other.Minimal)
    (hcovers : ∀ locator, set.covers locator ↔ other.covers locator) {element : Locator}
    (hmem : element ∈ set.locators) : element ∈ other.locators := by
  have hself : set.covers element :=
    (h.covers_iff element).2 ⟨element, hmem, Locator.isUnder_refl element⟩
  obtain ⟨above, habove, hunder⟩ := (hother.covers_iff element).1 ((hcovers element).1 hself)
  have hcovered : other.covers above :=
    (hother.covers_iff above).2 ⟨above, habove, Locator.isUnder_refl above⟩
  obtain ⟨top, htop, hover⟩ := (h.covers_iff above).1 ((hcovers above).2 hcovered)
  have heq : element = top := h.unrelated element hmem top htop (Locator.isUnder_trans hunder hover)
  subst heq
  rwa [Locator.isUnder_antisymm hunder hover]

theorem Minimal.eq_of_covers {set other : LocatorSet} (h : set.Minimal) (hother : other.Minimal)
    (hcovers : ∀ locator, set.covers locator ↔ other.covers locator) : set = other := by
  have hmem : ∀ element, element ∈ set.locators ↔ element ∈ other.locators := by
    intro element
    constructor
    . exact h.mem_of_covers hother hcovers
    . exact hother.mem_of_covers h fun locator => (hcovers locator).symm
  have hlocators : set.locators = other.locators :=
    h.ascending.eq_of_mem_iff hother.ascending hmem
  rwa [LocatorSet.mk.injEq]

theorem ofList_congr {locators others : List Locator}
    (h : ∀ locator, locator ∈ locators ↔ locator ∈ others) : ofList locators = ofList others := by
  apply (ofList_minimal locators).eq_of_covers (ofList_minimal others)
  intro locator
  simp only [covers_ofList_iff, h]

theorem empty_covers (locator : Locator) : empty.covers locator = false := rfl

theorem universal_covers (locator : Locator) : universal.covers locator :=
  (universal_minimal.covers_iff locator).2 ⟨[], List.mem_cons_self, Locator.isUnder_nil locator⟩

section Union

variable {set other third : LocatorSet} (h : set.Minimal) (hother : other.Minimal)

include h hother in
theorem Minimal.union_covers (locator : Locator) :
    (set.union other).covers locator ↔ set.covers locator ∨ other.covers locator := by
  rw [h.covers_union, hother.covers_iff]

include h hother in
theorem Minimal.union_comm : set.union other = other.union set := by
  apply (h.union other).eq_of_covers (hother.union set)
  intro locator
  rw [h.union_covers hother, hother.union_covers h, or_comm]

include h hother in
theorem Minimal.union_assoc (hthird : third.Minimal) :
    (set.union other).union third = set.union (other.union third) := by
  apply ((h.union other).union third).eq_of_covers (h.union (other.union third))
  intro locator
  rw [(h.union other).union_covers hthird, h.union_covers hother,
    h.union_covers (hother.union third), hother.union_covers hthird, or_assoc]

include h in
theorem Minimal.union_self : set.union set = set := by
  apply (h.union set).eq_of_covers h
  intro locator
  rw [h.union_covers h, or_self]

include h in
theorem Minimal.empty_union : empty.union set = set := by
  apply (empty_minimal.union set).eq_of_covers h
  intro locator
  rw [empty_minimal.union_covers h, empty_covers]
  simp

theorem union_empty (set : LocatorSet) : set.union empty = set := by
  unfold union
  split
  . rfl
  . rfl

-- The other set is not looked at.
theorem universal_union (set : LocatorSet) : universal.union set = universal := rfl

include h in
theorem Minimal.isUniversal_iff_covers :
    set.isUniversal ↔ ∀ locator, set.covers locator := by
  constructor
  . intro huniversal locator
    obtain ⟨rest, hrest⟩ := (isUniversal_iff set).1 huniversal
    exact (h.covers_iff locator).2 ⟨[], by simp [hrest], Locator.isUnder_nil locator⟩
  . intro hcovers
    have heq : set = universal := by
      apply h.eq_of_covers universal_minimal
      intro locator
      exact iff_of_true (hcovers locator) (universal_covers locator)
    rw [heq]
    rfl

end Union

theorem run_eq_iff_and_union_join (first second third : List Operation)
    (locators others : List Locator) :
    let a := empty.run first
    let b := empty.run second
    let c := empty.run third
    (a = b ↔ ∀ locator, a.covers locator = b.covers locator) ∧
      ((∀ locator, locator ∈ locators ↔ locator ∈ others) → ofList locators = ofList others) ∧
      (a.union b).union c = a.union (b.union c) ∧
      a.union b = b.union a ∧
      a.union a = a ∧
      (empty.union a = a ∧ a.union empty = a) ∧
      (universal.union a = universal ∧ a.union universal = universal) ∧
      (a.isUniversal ↔ ∀ locator, a.covers locator) := by
  intro a b c
  have ha : a.Minimal := empty_minimal.run first
  have hb : b.Minimal := empty_minimal.run second
  have hc : c.Minimal := empty_minimal.run third
  refine ⟨?_, ofList_congr, ha.union_assoc hb hc, ha.union_comm hb, ha.union_self,
    ⟨ha.empty_union, a.union_empty⟩, ⟨universal_union a, ?_⟩, ha.isUniversal_iff_covers⟩
  . constructor
    . intro heq locator
      rw [heq]
    . intro hcovers
      apply ha.eq_of_covers hb
      intro locator
      rw [hcovers]
  . rw [ha.union_comm universal_minimal]
    exact universal_union a

-- A locator displaces what was inserted under it, or keeps it out.
theorem run_eq_iff_and_union_join_reordered :
    let locators : List Locator := [["a", "b"], ["c"], ["a"], ["a", "d"]]
    let others : List Locator := [["a"], ["a", "d"], ["c"], ["a", "b"], ["c"]]
    (∀ locator, locator ∈ locators ↔ locator ∈ others) ∧ ofList locators = ofList others ∧
      ofList locators = ⟨[["a"], ["c"]]⟩ := by
  intro locators others
  have hmem : ∀ locator, locator ∈ locators ↔ locator ∈ others := by
    intro locator
    simp only [locators, others, List.mem_cons, List.not_mem_nil, or_false]
    tauto
  obtain ⟨_, hbuilds, _⟩ := run_eq_iff_and_union_join [] [] [] locators others
  exact ⟨hmem, hbuilds hmem, by decide⟩

end SceneTree.LocatorSet
