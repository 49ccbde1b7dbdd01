import Mathlib.Data.List.TakeWhile
import SceneTree.Locator.Set
import SceneTree.Proofs.Locator.Order

/-!
This module contains the invariant of locator sets and their meaning. However a set was made, its
locators ascend and none is under another, so looking at the closest smaller locator finds out
whether a place is covered. What is covered are the places at and under the inserted ones.
-/

namespace SceneTree.LocatorSet

structure Minimal (set : LocatorSet) : Prop where
  ascending : set.locators.Pairwise (· < ·)
  unrelated : ∀ a ∈ set.locators, ∀ b ∈ set.locators, a.isUnder b → a = b

theorem not_of_mem_dropWhile {α : Type} {p : α → Bool} {as : List α}
    (h : as.Pairwise fun a b => p b → p a) {a : α} (ha : a ∈ as.dropWhile p) : ¬ p a := by
  induction as with
  | nil => simp at ha
  | cons first rest ih =>
    rw [List.pairwise_cons] at h
    rw [List.dropWhile_cons] at ha
    split at ha
    . exact ih h.2 ha
    . next hfirst =>
      rcases List.mem_cons.1 ha with ha | ha
      . rwa [ha]
      . exact fun hp => hfirst (h.1 a ha hp)

theorem before_append_fromOn (set : LocatorSet) (locator : Locator) :
    set.before locator ++ set.fromOn locator = set.locators :=
  List.takeWhile_append_dropWhile

theorem mem_locators_iff (set : LocatorSet) (locator element : Locator) :
    element ∈ set.locators ↔ element ∈ set.before locator ∨ element ∈ set.fromOn locator := by
  rw [← List.mem_append, before_append_fromOn]

theorem lt_of_mem_before {set : LocatorSet} {locator element : Locator}
    (h : element ∈ set.before locator) : element < locator := by
  simpa using List.mem_takeWhile_imp h

theorem Minimal.not_lt_of_mem_fromOn {set : LocatorSet} (h : set.Minimal)
    {locator element : Locator} (hmem : element ∈ set.fromOn locator) : ¬ element < locator := by
  have hclosed : set.locators.Pairwise fun a b =>
      decide (b < locator) = true → decide (a < locator) = true := by
    apply h.ascending.imp
    intro a b hlt hb
    exact decide_eq_true (List.lt_trans hlt (of_decide_eq_true hb))
  simpa using not_of_mem_dropWhile hclosed hmem

theorem Minimal.fromOn_ascending {set : LocatorSet} (h : set.Minimal) (locator : Locator) :
    (set.fromOn locator).Pairwise (· < ·) :=
  h.ascending.sublist (List.dropWhile_sublist _)

theorem Minimal.head?_fromOn {set : LocatorSet} (h : set.Minimal) {locator : Locator}
    (hmem : locator ∈ set.locators) : (set.fromOn locator).head? = some locator := by
  have hfrom : locator ∈ set.fromOn locator := by
    rcases (set.mem_locators_iff locator locator).1 hmem with hbefore | hfrom
    . exact absurd (lt_of_mem_before hbefore) (List.lt_irrefl locator)
    . exact hfrom
  have hascending := h.fromOn_ascending locator
  have hlast : ∀ element ∈ set.fromOn locator, ¬ element < locator :=
    fun _ => h.not_lt_of_mem_fromOn
  cases hlist : set.fromOn locator with
  | nil => simp [hlist] at hfrom
  | cons first rest =>
    rw [hlist] at hfrom hascending hlast
    rcases List.mem_cons.1 hfrom with heq | hrest
    . rw [heq, List.head?_cons]
    . exact absurd ((List.pairwise_cons.1 hascending).1 locator hrest)
        (hlast first List.mem_cons_self)

-- Of the smaller locators only the greatest can be above: it would be under any other that is.
theorem Minimal.getLast?_before {set : LocatorSet} (h : set.Minimal) {locator element : Locator}
    (hmem : element ∈ set.locators) (hunder : locator.isUnder element) (hne : locator ≠ element) :
    (set.before locator).getLast? = some element := by
  have hlt : element < locator := Locator.lt_of_isUnder hunder hne
  have hbefore : element ∈ set.before locator := by
    rcases (set.mem_locators_iff locator element).1 hmem with hbefore | hfrom
    . exact hbefore
    . exact absurd hlt (h.not_lt_of_mem_fromOn hfrom)
  have hascending : (set.before locator).Pairwise (· < ·) :=
    h.ascending.sublist (List.takeWhile_sublist _)
  cases hlast : (set.before locator).getLast? with
  | none =>
    rw [List.getLast?_eq_none_iff] at hlast
    simp [hlast] at hbefore
  | some last =>
    obtain ⟨rest, hlist⟩ := List.getLast?_eq_some_iff.1 hlast
    have hlastBefore : last ∈ set.before locator := by simp [hlist]
    rw [hlist] at hbefore hascending
    rcases List.mem_append.1 hbefore with hrest | heq
    . have helement : element < last :=
        (List.pairwise_append.1 hascending).2.2 element hrest last List.mem_cons_self
      have hbetween : last.isUnder element :=
        Locator.isUnder_of_between (List.lt_asymm helement)
          (List.lt_asymm (lt_of_mem_before hlastBefore)) hunder
      have hlastMem : last ∈ set.locators := (set.mem_locators_iff locator last).2 (.inl hlastBefore)
      rw [h.unrelated last hlastMem element hmem hbetween]
    . rw [List.mem_singleton.1 heq]

theorem Minimal.covers_iff {set : LocatorSet} (h : set.Minimal) (locator : Locator) :
    set.covers locator ↔ ∃ element ∈ set.locators, locator.isUnder element := by
  unfold covers
  rw [Bool.or_eq_true, beq_iff_eq, Option.any_eq_true]
  constructor
  . rintro (hhead | ⟨last, hlast, hunder⟩)
    . have hfrom : locator ∈ set.fromOn locator := List.mem_of_head? hhead
      exact ⟨locator, (set.mem_locators_iff locator locator).2 (.inr hfrom),
        Locator.isUnder_refl locator⟩
    . have hbefore : last ∈ set.before locator := List.mem_of_getLast? hlast
      exact ⟨last, (set.mem_locators_iff locator last).2 (.inl hbefore), hunder⟩
  . rintro ⟨element, hmem, hunder⟩
    by_cases heq : locator = element
    . subst heq
      exact .inl (h.head?_fromOn hmem)
    . exact .inr ⟨element, h.getLast?_before hmem hunder heq, hunder⟩

/-! ## Insertion -/

theorem empty_minimal : empty.Minimal where
  ascending := List.Pairwise.nil
  unrelated := by simp [empty]

theorem universal_minimal : universal.Minimal where
  ascending := List.pairwise_singleton _ _
  unrelated := by simp [universal]

def notUnder (set : LocatorSet) (locator : Locator) : List Locator :=
  (set.fromOn locator).dropWhile (·.isUnder locator)

theorem insert_of_covers {set : LocatorSet} {locator : Locator} (h : set.covers locator) :
    set.insert locator = set := by
  unfold insert
  rw [if_pos h]

theorem insert_eq {set : LocatorSet} {locator : Locator} (h : ¬ set.covers locator) :
    (set.insert locator).locators = set.before locator ++ locator :: set.notUnder locator := by
  unfold insert
  rw [if_neg h]
  rfl

theorem mem_fromOn_of_mem_notUnder {set : LocatorSet} {locator element : Locator}
    (h : element ∈ set.notUnder locator) : element ∈ set.fromOn locator :=
  (List.dropWhile_sublist _).subset h

-- What is under a locator stands in one piece behind it.
theorem Minimal.not_isUnder_of_mem_notUnder {set : LocatorSet} (h : set.Minimal)
    {locator element : Locator} (hmem : element ∈ set.notUnder locator) :
    ¬ element.isUnder locator := by
  have hclosed : (set.fromOn locator).Pairwise fun a b =>
      b.isUnder locator = true → a.isUnder locator = true := by
    apply (h.fromOn_ascending locator).imp_of_mem
    intro a b ha _ hlt hunder
    exact Locator.isUnder_of_between (h.not_lt_of_mem_fromOn ha) (List.lt_asymm hlt) hunder
  exact not_of_mem_dropWhile hclosed hmem

theorem mem_of_mem_insert {set : LocatorSet} {locator element : Locator}
    (h : element ∈ (set.insert locator).locators) : element = locator ∨ element ∈ set.locators := by
  by_cases hcovers : set.covers locator
  . rw [insert_of_covers hcovers] at h
    exact .inr h
  . rw [insert_eq hcovers, List.mem_append, List.mem_cons] at h
    rcases h with hbefore | heq | hnotUnder
    . exact .inr ((set.mem_locators_iff locator element).2 (.inl hbefore))
    . exact .inl heq
    . exact .inr ((set.mem_locators_iff locator element).2
        (.inr (mem_fromOn_of_mem_notUnder hnotUnder)))

theorem mem_insert_of_not_isUnder {set : LocatorSet} {locator element : Locator}
    (hmem : element ∈ set.locators) (hunder : ¬ element.isUnder locator) :
    element ∈ (set.insert locator).locators := by
  by_cases hcovers : set.covers locator
  . rwa [insert_of_covers hcovers]
  . rw [insert_eq hcovers, List.mem_append, List.mem_cons]
    rcases (set.mem_locators_iff locator element).1 hmem with hbefore | hfrom
    . exact .inl hbefore
    . unfold notUnder
      rw [← List.takeWhile_append_dropWhile (p := (·.isUnder locator)) (l := set.fromOn locator),
        List.mem_append] at hfrom
      rcases hfrom with htake | hdrop
      . exact absurd (List.mem_takeWhile_imp htake) hunder
      . exact .inr (.inr hdrop)

theorem self_mem_insert {set : LocatorSet} {locator : Locator} (h : ¬ set.covers locator) :
    locator ∈ (set.insert locator).locators := by
  rw [insert_eq h]
  exact List.mem_append_right _ List.mem_cons_self

theorem Minimal.insert {set : LocatorSet} (h : set.Minimal) (locator : Locator) :
    (set.insert locator).Minimal := by
  by_cases hcovers : set.covers locator
  . rwa [insert_of_covers hcovers]
  . have hover : ∀ element ∈ set.locators, ¬ locator.isUnder element := fun element hmem hunder =>
      hcovers ((h.covers_iff locator).2 ⟨element, hmem, hunder⟩)
    have hlists := h.ascending
    rw [← set.before_append_fromOn locator, List.pairwise_append] at hlists
    obtain ⟨hbefore, hfrom, hcross⟩ := hlists
    constructor
    . rw [insert_eq hcovers, List.pairwise_append, List.pairwise_cons]
      refine ⟨hbefore, ⟨?_, hfrom.sublist (List.dropWhile_sublist _)⟩, ?_⟩
      . intro element hmem
        have helement := mem_fromOn_of_mem_notUnder hmem
        by_contra hlt
        have heq : locator = element :=
          Locator.eq_of_not_lt hlt (h.not_lt_of_mem_fromOn helement)
        apply hover element ((set.mem_locators_iff locator element).2 (.inr helement))
        rw [heq]
        exact Locator.isUnder_refl element
      . intro element hmem other hother
        rcases List.mem_cons.1 hother with heq | hother
        . rw [heq]
          exact lt_of_mem_before hmem
        . exact hcross element hmem other (mem_fromOn_of_mem_notUnder hother)
    . have hunder : ∀ element ∈ (set.insert locator).locators, element ≠ locator →
          ¬ element.isUnder locator := by
        intro element hmem hne
        rw [insert_eq hcovers, List.mem_append, List.mem_cons] at hmem
        rcases hmem with hmem | heq | hmem
        . exact fun hunder => Locator.not_lt_of_isUnder hunder (lt_of_mem_before hmem)
        . exact absurd heq hne
        . exact h.not_isUnder_of_mem_notUnder hmem
      intro a ha b hb habove
      rcases mem_of_mem_insert hb with heq | hold
      . by_contra hne
        rw [heq] at hne habove
        exact hunder a ha hne habove
      . rcases mem_of_mem_insert ha with heq | ha
        . rw [heq] at habove
          exact absurd habove (hover b hold)
        . exact h.unrelated a ha b hold habove

theorem Minimal.covers_insert {set : LocatorSet} (h : set.Minimal) (locator other : Locator) :
    (set.insert locator).covers other ↔ set.covers other ∨ other.isUnder locator := by
  by_cases hcovers : set.covers locator
  . rw [insert_of_covers hcovers]
    obtain ⟨above, hmem, hover⟩ := (h.covers_iff locator).1 hcovers
    refine ⟨.inl, ?_⟩
    rintro (hother | hunder)
    . exact hother
    . exact (h.covers_iff other).2 ⟨above, hmem, Locator.isUnder_trans hunder hover⟩
  . rw [(h.insert locator).covers_iff, h.covers_iff]
    constructor
    . rintro ⟨element, hmem, hunder⟩
      rcases mem_of_mem_insert hmem with heq | hmem
      . exact .inr (heq ▸ hunder)
      . exact .inl ⟨element, hmem, hunder⟩
    . rintro (⟨element, hmem, hunder⟩ | hunder)
      . by_cases habove : element.isUnder locator
        . exact ⟨locator, self_mem_insert hcovers, Locator.isUnder_trans hunder habove⟩
        . exact ⟨element, mem_insert_of_not_isUnder hmem habove, hunder⟩
      . exact ⟨locator, self_mem_insert hcovers, hunder⟩

theorem Minimal.insertAll {set : LocatorSet} (h : set.Minimal) (locators : List Locator) :
    (set.insertAll locators).Minimal := by
  unfold LocatorSet.insertAll
  induction locators generalizing set with
  | nil => exact h
  | cons locator rest ih => exact ih (h.insert locator)

theorem Minimal.covers_insertAll {set : LocatorSet} (h : set.Minimal) (locators : List Locator)
    (other : Locator) :
    (set.insertAll locators).covers other
      ↔
    set.covers other ∨ ∃ locator ∈ locators, other.isUnder locator := by
  unfold LocatorSet.insertAll
  induction locators generalizing set with
  | nil => simp
  | cons locator rest ih =>
    rw [List.foldl_cons, ih (h.insert locator), h.covers_insert, or_assoc]
    simp

theorem ofList_minimal (locators : List Locator) : (ofList locators).Minimal :=
  empty_minimal.insertAll locators

theorem mem_of_mem_insertAll {set : LocatorSet} {locators : List Locator} {element : Locator}
    (h : element ∈ (set.insertAll locators).locators) :
    element ∈ locators ∨ element ∈ set.locators := by
  unfold LocatorSet.insertAll at h
  induction locators generalizing set with
  | nil => exact .inr h
  | cons locator rest ih =>
    rw [List.foldl_cons] at h
    rcases ih h with hrest | hset
    . exact .inl (List.mem_cons_of_mem _ hrest)
    . rcases mem_of_mem_insert hset with heq | hset
      . exact .inl (heq ▸ List.mem_cons_self)
      . exact .inr hset

theorem mem_of_mem_ofList {locators : List Locator} {element : Locator}
    (h : element ∈ (ofList locators).locators) : element ∈ locators :=
  (mem_of_mem_insertAll h).resolve_right List.not_mem_nil

theorem covers_ofList_iff (locators : List Locator) (other : Locator) :
    (ofList locators).covers other ↔ ∃ locator ∈ locators, other.isUnder locator := by
  unfold ofList
  rw [empty_minimal.covers_insertAll, empty_minimal.covers_iff]
  simp [empty]

-- Locators that are not related do not displace each other.
theorem mem_ofList_iff {locators : List Locator}
    (h : ∀ a ∈ locators, ∀ b ∈ locators, a.isUnder b → a = b) (element : Locator) :
    element ∈ (ofList locators).locators ↔ element ∈ locators := by
  refine ⟨mem_of_mem_ofList, fun hmem => ?_⟩
  have hcovers := (covers_ofList_iff locators element).2 ⟨element, hmem, Locator.isUnder_refl element⟩
  obtain ⟨above, habove, hunder⟩ := ((ofList_minimal locators).covers_iff element).1 hcovers
  rwa [h element hmem above (mem_of_mem_ofList habove) hunder]

theorem Minimal.nodup {set : LocatorSet} (h : set.Minimal) : set.locators.Nodup := by
  apply h.ascending.imp
  intro a b hlt heq
  exact List.lt_irrefl b (heq ▸ hlt)

theorem isUniversal_iff (set : LocatorSet) :
    set.isUniversal ↔ ∃ rest, set.locators = [] :: rest := by
  unfold isUniversal
  split
  . next rest heq => simp [heq]
  . next hne => simpa using hne

theorem Minimal.union {set : LocatorSet} (h : set.Minimal) (other : LocatorSet) :
    (set.union other).Minimal := by
  unfold LocatorSet.union
  split
  . exact h
  . exact h.insertAll other.locators

-- A set that is universal does not look at the other one, of which it covers everything.
theorem Minimal.covers_union {set : LocatorSet} (h : set.Minimal) (other : LocatorSet)
    (locator : Locator) :
    (set.union other).covers locator
      ↔
    set.covers locator ∨ ∃ element ∈ other.locators, locator.isUnder element := by
  unfold LocatorSet.union
  split
  . next huniversal =>
    obtain ⟨rest, hrest⟩ := (isUniversal_iff set).1 huniversal
    have hcovers : set.covers locator :=
      (h.covers_iff locator).2 ⟨[], by simp [hrest], Locator.isUnder_nil locator⟩
    simp [hcovers]
  . exact h.covers_insertAll other.locators locator

inductive Insertion where
  | one (locator : Locator)
  | all (other : LocatorSet)

inductive Operation where
  | insertion (insertion : Insertion)
  | within (locator : Locator)
  | moved (source target : Locator)
  | universal

namespace Insertion

def locators : Insertion → List Locator
  | one locator => [locator]
  | all other => other.locators

end Insertion

def perform (set : LocatorSet) : Operation → LocatorSet
  | .insertion (.one locator) => set.insert locator
  | .insertion (.all other) => set.union other
  | .within locator => set.within locator
  | .moved source target => set.moved source target
  | .universal => .universal

def run (set : LocatorSet) (operations : List Operation) : LocatorSet :=
  operations.foldl perform set

theorem Minimal.perform {set : LocatorSet} (h : set.Minimal) (operation : Operation) :
    (set.perform operation).Minimal := by
  cases operation with
  | insertion insertion =>
    cases insertion with
    | one locator => exact h.insert locator
    | all other => exact h.union other
  | within locator => exact ofList_minimal _
  | moved source target => exact ofList_minimal _
  | universal => exact universal_minimal

theorem Minimal.run {set : LocatorSet} (h : set.Minimal) (operations : List Operation) :
    (set.run operations).Minimal := by
  unfold LocatorSet.run
  induction operations generalizing set with
  | nil => exact h
  | cons operation rest ih => exact ih (h.perform operation)

theorem Minimal.covers_perform_insertion {set : LocatorSet} (h : set.Minimal)
    (insertion : Insertion) (locator : Locator) :
    (set.perform (.insertion insertion)).covers locator
      ↔
    set.covers locator ∨ ∃ element ∈ insertion.locators, locator.isUnder element := by
  cases insertion with
  | one inserted =>
    simp only [LocatorSet.perform, Insertion.locators, List.mem_singleton, exists_eq_left]
    exact h.covers_insert inserted locator
  | all other => exact h.covers_union other locator

theorem Minimal.covers_run_insertions {set : LocatorSet} (h : set.Minimal)
    (insertions : List Insertion) (locator : Locator) :
    (set.run (insertions.map .insertion)).covers locator
      ↔
    set.covers locator ∨
      ∃ element ∈ insertions.flatMap Insertion.locators, locator.isUnder element := by
  unfold LocatorSet.run
  induction insertions generalizing set with
  | nil => simp
  | cons insertion rest ih =>
    rw [List.map_cons, List.foldl_cons, ih (h.perform (.insertion insertion)),
      h.covers_perform_insertion, List.flatMap_cons, or_assoc]
    simp only [List.mem_append, or_and_right, exists_or]

theorem run_minimal_and_covers_iff (operations : List Operation) (insertions : List Insertion)
    (locator : Locator) :
    (empty.run operations).Minimal ∧
      (empty.run operations).covers locator
        = (empty.run operations).locators.any (locator.isUnder ·) ∧
      ((empty.run (insertions.map .insertion)).covers locator
        ↔ ∃ element ∈ insertions.flatMap Insertion.locators, locator.isUnder element) := by
  have hrun := empty_minimal.run operations
  refine ⟨hrun, ?_, ?_⟩
  . rw [Bool.eq_iff_iff, hrun.covers_iff, List.any_eq_true]
  . rw [empty_minimal.covers_run_insertions, empty_minimal.covers_iff]
    simp [empty]

end SceneTree.LocatorSet
