import SceneTree.Locator.Set

/-!
This module contains facts about the operations of locator sets. What is covered, narrowed or moved
is empty only if there was nothing to begin with.
-/

namespace SceneTree.LocatorSet

theorem isEmpty_insert (set : LocatorSet) (locator : Locator) :
    (set.insert locator).isEmpty = false := by
  unfold insert
  split
  . next hcovers =>
    rcases set with ⟨_ | ⟨first, rest⟩⟩
    . simp [covers, before, fromOn] at hcovers
    . rfl
  . simp [isEmpty]

theorem isEmpty_insertAll (set : LocatorSet) (locators : List Locator) :
    (set.insertAll locators).isEmpty = (set.isEmpty && locators.isEmpty) := by
  unfold insertAll
  induction locators generalizing set with
  | nil => simp
  | cons locator rest ih =>
    rw [List.foldl_cons, ih, isEmpty_insert]
    simp

theorem isEmpty_ofList (locators : List Locator) :
    (ofList locators).isEmpty = locators.isEmpty := by
  unfold ofList
  rw [isEmpty_insertAll]
  rfl

theorem isEmpty_moved (set : LocatorSet) (source target : Locator) :
    (set.moved source target).isEmpty = set.isEmpty := by
  unfold moved
  rw [isEmpty_ofList, List.isEmpty_map]
  rfl

theorem isEmpty_within_of_meets {set : LocatorSet} {locator : Locator} (h : set.meets locator) :
    (set.within locator).isEmpty = false := by
  unfold meets at h
  rw [List.any_eq_true] at h
  obtain ⟨element, hmem, hrelated⟩ := h
  unfold within
  rw [isEmpty_ofList, List.isEmpty_eq_false_iff_exists_mem]
  rw [Locator.isRelatedTo_iff] at hrelated
  by_cases hunder : locator.isUnder element
  . exact ⟨locator, List.mem_filterMap.2 ⟨element, hmem, by simp [hunder]⟩⟩
  . have hover : element.isUnder locator := hrelated.resolve_right hunder
    exact ⟨element, List.mem_filterMap.2 ⟨element, hmem, by simp [hunder, hover]⟩⟩

theorem isEmpty_union (set other : LocatorSet) :
    (set.union other).isEmpty = (set.isEmpty && other.isEmpty) := by
  unfold union
  split
  . next huniversal =>
    rcases set with ⟨_ | ⟨first, rest⟩⟩
    . simp [isUniversal] at huniversal
    . rfl
  . rw [isEmpty_insertAll]
    rfl

end SceneTree.LocatorSet
