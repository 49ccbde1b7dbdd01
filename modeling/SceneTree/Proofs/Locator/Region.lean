import SceneTree.Proofs.Locator.Canonical
import SceneTree.Proofs.Locator.Set

/-!
This module contains the regions that locator sets cover: that of the part of a set at a place, and
that of a set whose locators were moved to another place. Sets meet if their regions have a place in
common.
-/

namespace SceneTree.LocatorSet

theorem within_minimal (set : LocatorSet) (top : Locator) : (set.within top).Minimal :=
  ofList_minimal _

theorem moved_minimal (set : LocatorSet) (source target : Locator) :
    (set.moved source target).Minimal :=
  ofList_minimal _

-- A locator above the place is narrowed to the place, one under it stays.
theorem Minimal.covers_within {set : LocatorSet} (h : set.Minimal) (top place : Locator) :
    (set.within top).covers place ↔ set.covers place ∧ place.isUnder top := by
  unfold within
  rw [covers_ofList_iff, h.covers_iff]
  constructor
  . rintro ⟨narrowed, hnarrowed, hunder⟩
    obtain ⟨element, hmem, heq⟩ := List.mem_filterMap.1 hnarrowed
    split at heq
    . next hover =>
      cases heq
      exact ⟨⟨element, hmem, Locator.isUnder_trans hunder hover⟩, hunder⟩
    . split at heq
      . next hbelow =>
        cases heq
        exact ⟨⟨narrowed, hmem, hunder⟩, Locator.isUnder_trans hunder hbelow⟩
      . cases heq
  . rintro ⟨⟨element, hmem, hunder⟩, htop⟩
    by_cases hover : top.isUnder element
    . exact ⟨top, List.mem_filterMap.2 ⟨element, hmem, if_pos hover⟩, htop⟩
    . have hrelated := Locator.isRelatedTo_iff.1 (Locator.isRelatedTo_of_isUnder hunder htop)
      have hbelow : element.isUnder top := hrelated.resolve_right hover
      refine ⟨element, List.mem_filterMap.2 ⟨element, hmem, ?_⟩, hunder⟩
      rw [if_neg hover, if_pos hbelow]

theorem isEmpty_within (set : LocatorSet) (top : Locator) :
    (set.within top).isEmpty = !set.meets top := by
  cases hmeets : set.meets top with
  | true => exact isEmpty_within_of_meets hmeets
  | false =>
    unfold within
    rw [isEmpty_ofList, Bool.not_false, List.isEmpty_iff, List.filterMap_eq_nil_iff]
    intro element hmem
    have hrelated : ¬ element.isRelatedTo top := by
      unfold meets at hmeets
      exact List.any_eq_false.1 hmeets element hmem
    rw [Locator.isRelatedTo_iff, not_or] at hrelated
    rw [if_neg hrelated.2, if_neg hrelated.1]

theorem covers_moved_iff (set : LocatorSet) (source target place : Locator) :
    (set.moved source target).covers place
      ↔
    ∃ element ∈ set.locators, place.isUnder (element.moved source target) := by
  unfold moved
  rw [covers_ofList_iff]
  simp only [List.mem_map, exists_exists_and_eq_and]

-- All locators of the part at a place are under the place, so moving them loses nothing.
theorem isUnder_of_mem_within {set : LocatorSet} {top element : Locator}
    (h : element ∈ (set.within top).locators) : element.isUnder top := by
  unfold within at h
  obtain ⟨original, _, heq⟩ := List.mem_filterMap.1 (mem_of_mem_ofList h)
  split at heq
  . cases heq
    exact Locator.isUnder_refl top
  . split at heq
    . next hbelow =>
      cases heq
      exact hbelow
    . cases heq

-- The part of a set at a place, seen from the place.
theorem Minimal.covers_moved_within {set : LocatorSet} (h : set.Minimal) (top rest : Locator) :
    ((set.within top).moved top []).covers rest ↔ set.covers (top ++ rest) := by
  have hwithin := h.covers_within top (top ++ rest)
  rw [and_iff_left (Locator.append_isUnder top rest), (set.within_minimal top).covers_iff]
    at hwithin
  rw [covers_moved_iff, ← hwithin]
  apply exists_congr
  intro element
  apply and_congr_right
  intro hmem
  obtain ⟨below, hbelow⟩ := Locator.exists_eq_append_of_isUnder (isUnder_of_mem_within hmem)
  subst hbelow
  rw [Locator.append_isUnder_append, Locator.moved_append, List.nil_append]

-- A set that is moved to a place covers there what it covered at the top.
theorem Minimal.covers_moved_nil {set : LocatorSet} (h : set.Minimal) (target place : Locator) :
    (set.moved [] target).covers place ↔ ∃ rest, place = target ++ rest ∧ set.covers rest := by
  have hmoved (element : Locator) : element.moved [] target = target ++ element :=
    Locator.moved_append [] target element
  rw [covers_moved_iff]
  simp only [h.covers_iff]
  constructor
  . rintro ⟨element, hmem, hunder⟩
    rw [hmoved] at hunder
    have htarget := Locator.isUnder_trans hunder (Locator.append_isUnder target element)
    obtain ⟨rest, hrest⟩ := Locator.exists_eq_append_of_isUnder htarget
    subst hrest
    rw [Locator.append_isUnder_append] at hunder
    exact ⟨rest, rfl, element, hmem, hunder⟩
  . rintro ⟨rest, rfl, element, hmem, hunder⟩
    refine ⟨element, hmem, ?_⟩
    rwa [hmoved, Locator.append_isUnder_append]

-- Unrelated locators are all that there is to a set that covers what is at and under them.
theorem Minimal.perm_of_covers {set : LocatorSet} (h : set.Minimal) {tops : List Locator}
    (hnodup : tops.Nodup) (hunrelated : ∀ a ∈ tops, ∀ b ∈ tops, a.isUnder b → a = b)
    (hcovers : ∀ place, set.covers place ↔ ∃ top ∈ tops, place.isUnder top) :
    set.locators.Perm tops := by
  have heq : set = ofList tops := by
    apply h.eq_of_covers (ofList_minimal tops)
    intro place
    rw [hcovers, covers_ofList_iff]
  rw [List.perm_ext_iff_of_nodup h.nodup hnodup, heq]
  exact mem_ofList_iff hunrelated

theorem Minimal.isEmpty_iff_covers {set : LocatorSet} (h : set.Minimal) :
    set.isEmpty ↔ ∀ place, ¬ set.covers place := by
  unfold isEmpty
  rw [List.isEmpty_iff, List.eq_nil_iff_forall_not_mem]
  constructor
  . intro hnone place hcovers
    obtain ⟨element, hmem, _⟩ := (h.covers_iff place).1 hcovers
    exact hnone element hmem
  . intro hnone element hmem
    exact hnone element ((h.covers_iff element).2 ⟨element, hmem, Locator.isUnder_refl element⟩)

-- A place has a part of the set exactly if some place under it is covered.
theorem Minimal.meets_iff_covers {set : LocatorSet} (h : set.Minimal) (top : Locator) :
    set.meets top ↔ ∃ place, set.covers place ∧ place.isUnder top := by
  have hempty := (set.within_minimal top).isEmpty_iff_covers
  rw [isEmpty_within] at hempty
  simp only [h.covers_within] at hempty
  rw [← not_iff_not]
  simpa using hempty

theorem Minimal.meetsSet_iff_covers {set other : LocatorSet} (h : set.Minimal)
    (hother : other.Minimal) :
    set.meetsSet other ↔ ∃ place, set.covers place ∧ other.covers place := by
  unfold meetsSet
  rw [List.any_eq_true]
  simp only [h.meets_iff_covers, hother.covers_iff]
  constructor
  . rintro ⟨element, hmem, place, hcovers, hunder⟩
    exact ⟨place, hcovers, element, hmem, hunder⟩
  . rintro ⟨place, hcovers, element, hmem, hunder⟩
    exact ⟨element, hmem, place, hcovers, hunder⟩

theorem run_within_and_meetsSet_iff_covers (first second : List Operation) (top place : Locator) :
    let set := empty.run first
    let other := empty.run second
    ((set.within top).covers place ↔ set.covers place ∧ place.isUnder top) ∧
      (set.meets top ↔ ¬ (set.within top).isEmpty) ∧
      (set.meetsSet other ↔ ∃ common, set.covers common ∧ other.covers common) ∧
      set.meetsSet other = other.meetsSet set := by
  intro set other
  have hset : set.Minimal := empty_minimal.run first
  have hother : other.Minimal := empty_minimal.run second
  have hmeets := hset.meetsSet_iff_covers hother
  refine ⟨hset.covers_within top place, ?_, hmeets, ?_⟩
  . simp [isEmpty_within]
  . rw [Bool.eq_iff_iff, hmeets, hother.meetsSet_iff_covers hset]
    simp only [and_comm]

end SceneTree.LocatorSet
