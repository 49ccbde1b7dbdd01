import SceneTree.Proofs.Locator.Region

/-!
This module contains what moving the locators of a set makes of the set. In general a moved locator
can come to be above or under another one. If all locators of a set are moved together, they keep
their order and their relations, so the set only changes its place and can be moved back.
-/

namespace SceneTree

namespace Locator

theorem append_lt_append_iff (top : Locator) {a b : Locator} : top ++ a < top ++ b ↔ a < b := by
  induction top with
  | nil => rfl
  | cons name rest ih => simp [ih]

section Moved

variable {a b source : Locator} (ha : a.isUnder source) (target : Locator)
include ha

theorem moved_isUnder : (a.moved source target).isUnder target := by
  obtain ⟨rest, hrest⟩ := exists_eq_append_of_isUnder ha
  rw [hrest, moved_append]
  exact append_isUnder target rest

theorem moved_moved : (a.moved source target).moved target source = a := by
  obtain ⟨rest, hrest⟩ := exists_eq_append_of_isUnder ha
  rw [hrest, moved_append, moved_append]

variable (hb : b.isUnder source)
include hb

theorem moved_lt_moved_iff : a.moved source target < b.moved source target ↔ a < b := by
  obtain ⟨rest, hrest⟩ := exists_eq_append_of_isUnder ha
  obtain ⟨other, hother⟩ := exists_eq_append_of_isUnder hb
  rw [hrest, hother, moved_append, moved_append, append_lt_append_iff, append_lt_append_iff]

theorem moved_isUnder_moved :
    (a.moved source target).isUnder (b.moved source target) = a.isUnder b := by
  obtain ⟨rest, hrest⟩ := exists_eq_append_of_isUnder ha
  obtain ⟨other, hother⟩ := exists_eq_append_of_isUnder hb
  rw [hrest, hother, moved_append, moved_append, append_isUnder_append, append_isUnder_append]

end Moved

end Locator

namespace LocatorSet

theorem Minimal.ofList_locators {set : LocatorSet} (h : set.Minimal) :
    ofList set.locators = set := by
  apply (ofList_minimal set.locators).eq_of_covers h
  intro locator
  rw [covers_ofList_iff, h.covers_iff]

section Under

variable {set : LocatorSet} (h : set.Minimal) {source : Locator}
variable (hunder : ∀ element ∈ set.locators, element.isUnder source) (target : Locator)
include h hunder

-- Locators that are moved together neither change their order nor displace each other.
theorem Minimal.map_moved : Minimal ⟨set.locators.map (·.moved source target)⟩ where
  ascending := by
    rw [List.pairwise_map]
    apply h.ascending.imp_of_mem
    intro a b ha hb hlt
    exact (Locator.moved_lt_moved_iff (hunder a ha) target (hunder b hb)).2 hlt
  unrelated := by
    intro first hfirst second hsecond hrelated
    obtain ⟨a, ha, hfirst⟩ := List.mem_map.1 hfirst
    obtain ⟨b, hb, hsecond⟩ := List.mem_map.1 hsecond
    rw [← hfirst, ← hsecond, Locator.moved_isUnder_moved (hunder a ha) target (hunder b hb)]
      at hrelated
    rw [← hfirst, ← hsecond, h.unrelated a ha b hb hrelated]

theorem Minimal.locators_moved :
    (set.moved source target).locators = set.locators.map (·.moved source target) :=
  congrArg locators (h.map_moved hunder target).ofList_locators

theorem Minimal.size_moved : (set.moved source target).size = set.size := by
  unfold size
  rw [h.locators_moved hunder, List.length_map]

theorem Minimal.moved_moved : (set.moved source target).moved target source = set := by
  have hback : ∀ element ∈ (set.moved source target).locators, element.isUnder target := by
    intro element hmem
    rw [h.locators_moved hunder] at hmem
    obtain ⟨original, horiginal, heq⟩ := List.mem_map.1 hmem
    rw [← heq]
    exact Locator.moved_isUnder (hunder original horiginal) target
  have hsame : ∀ element ∈ set.locators,
      ((·.moved target source) ∘ (·.moved source target)) element = id element :=
    fun element hmem => Locator.moved_moved (hunder element hmem) target
  have hlocators : ((set.moved source target).moved target source).locators = set.locators := by
    rw [(set.moved_minimal source target).locators_moved hback, h.locators_moved hunder,
      List.map_map, List.map_congr_left hsame, List.map_id]
  rwa [LocatorSet.mk.injEq]

end Under

theorem run_moved_covers_iff_and_moved_moved (operations : List Operation)
    (source target place : Locator) :
    let set := empty.run operations
    ((set.moved source target).covers place
        ↔ ∃ element ∈ set.locators, place.isUnder (element.moved source target)) ∧
      (∀ rest, Locator.moved (source ++ rest) source target = target ++ rest) ∧
      (∀ element : Locator, ¬ element.isUnder source → element.moved source target = element) ∧
      ((∀ element ∈ set.locators, element.isUnder source) →
        (set.moved source target).size = set.size ∧
          (set.moved source target).moved target source = set) := by
  intro set
  have hset : set.Minimal := empty_minimal.run operations
  refine ⟨set.covers_moved_iff source target place, Locator.moved_append source target, ?_, ?_⟩
  . exact fun element hbeside => Locator.moved_of_not_isUnder hbeside target
  . exact fun hunder => ⟨hset.size_moved hunder target, hset.moved_moved hunder target⟩

-- The set moves to a place under its own, which one of its locators had before.
theorem run_moved_covers_iff_and_moved_moved_deeper :
    let operations : List Operation :=
      [.insertion (.one ["a", "b", "c"]), .insertion (.all ⟨[["a", "c"], ["a", "b"]]⟩)]
    let set := empty.run operations
    let source : Locator := ["a"]
    let target : Locator := ["a", "b"]
    ¬ Locator.isUnder ["c"] source ∧ Locator.moved ["c"] source target = ["c"] ∧
      (∀ element ∈ set.locators, element.isUnder source) ∧
      set.moved source target = ⟨[["a", "b", "b"], ["a", "b", "c"]]⟩ ∧
      (set.moved source target).size = set.size ∧
      (set.moved source target).moved target source = set := by
  intro operations set source target
  obtain ⟨_, _, hkept, hmoved⟩ := run_moved_covers_iff_and_moved_moved operations source target []
  have hbeside : ¬ Locator.isUnder ["c"] source := by decide
  have hunder : ∀ element ∈ set.locators, element.isUnder source := by decide
  obtain ⟨hsize, hback⟩ := hmoved hunder
  exact ⟨hbeside, hkept _ hbeside, hunder, by decide, hsize, hback⟩

-- A locator that stays can come to be under one that moves. Moving back does not bring it back.
example :
    let set := ofList [["a", "x"], ["b", "x", "y"]]
    set.moved ["a"] ["b"] = ⟨[["b", "x"]]⟩ ∧
      (set.moved ["a"] ["b"]).moved ["b"] ["a"] = ⟨[["a", "x"]]⟩ := by decide

end LocatorSet

end SceneTree
