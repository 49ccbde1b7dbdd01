import Mathlib.Data.List.Nodup
import SceneTree.Proofs.Sampled.Times

/-!
This module contains which of the samples that were given is held at a time: the latest one that is
not after it, or the earliest one if all are. Several samples can be given for one time. Then the
first of them counts, where the negative zero comes before the positive one.
-/

namespace SceneTree

namespace Time

-- Of all numbers only zero has two bit patterns.
theorem eq_or_zeros_of_sameAs {a b : Time} (h : a.sameAs b) :
    a = b ∨ (a = zero ∧ b = negativeZero) ∨ (a = negativeZero ∧ b = zero) := by
  have hposition := (sameAs_iff.1 h).2.2
  unfold position at hposition
  cases hsign : a.isNegative <;> cases hother : b.isNegative
  all_goals
    simp only [hsign, hother, if_true, if_false, Bool.false_eq_true] at hposition
  . exact .inl (eq_of_magnitude_eq (hsign.trans hother.symm) (by omega))
  . obtain ⟨ha, hb⟩ : a.magnitude = 0 ∧ b.magnitude = 0 := by omega
    exact .inr (.inl ⟨eq_of_magnitude_eq hsign ha, eq_of_magnitude_eq hother hb⟩)
  . obtain ⟨ha, hb⟩ : a.magnitude = 0 ∧ b.magnitude = 0 := by omega
    exact .inr (.inr ⟨eq_of_magnitude_eq hsign ha, eq_of_magnitude_eq hother hb⟩)
  . exact .inl (eq_of_magnitude_eq (hsign.trans hother.symm) (by omega))

end Time

namespace SampleTimes

section Ordered

variable {α : Type} {time : α → Time} {as : List α}

-- Of the elements at one time the one that stands first is kept. The induction is on what is behind
-- the element that was kept last, which is at or before all of it.
theorem find?_of_mem_dedup_go {kept : α}
    (h : (kept :: as).Pairwise fun a b => (time a).atOrBefore (time b))
    (hnumber : ∀ a ∈ kept :: as, (time a).isNaN = false) {a : α}
    (ha : a ∈ dedup.go (fun a b => (time a).sameAs (time b)) kept as) :
    (kept :: as).find? (fun b => (time b).sameAs (time a)) = some a := by
  induction as generalizing kept with
  | nil =>
    have heq : a = kept := List.mem_singleton.1 ha
    subst heq
    exact List.find?_cons_of_pos (Time.sameAs_self (hnumber a List.mem_cons_self))
  | cons b rest ih =>
    have hpairwise := dedup_go_pairwise h
    unfold dedup.go at ha hpairwise
    obtain ⟨hkept, hrest⟩ := List.pairwise_cons.1 h
    split at ha
    . next hsame =>
      have hfind := ih (List.pairwise_cons.2 ⟨by grind, hrest.of_cons⟩) (by grind) ha
      rw [List.find?_cons] at hfind
      rw [List.find?_cons, List.find?_cons, ← Time.sameAs_congr hsame]
      cases hkeptSame : (time kept).sameAs (time a) with
      | true => rwa [hkeptSame] at hfind
      | false => rwa [hkeptSame] at hfind
    . next hdiffers =>
      rw [if_neg hdiffers] at hpairwise
      rcases List.mem_cons.1 ha with heq | ha
      . subst heq
        exact List.find?_cons_of_pos (Time.sameAs_self (hnumber a List.mem_cons_self))
      . have hbefore := (List.pairwise_cons.1 hpairwise).1 a ha
        rw [List.find?_cons_of_neg (by grind)]
        exact ih hrest (by grind) ha

theorem find?_of_mem_ordered (hnumber : ∀ a ∈ as, (time a).isNaN = false) {a : α}
    (ha : a ∈ ordered time as) :
    (as.mergeSort fun a b => (time a).rankLE (time b)).find? (fun b => (time b).sameAs (time a))
      =
    some a := by
  have hsorted := mergeSort_pairwise hnumber
  have hnumber : ∀ a ∈ as.mergeSort fun a b => (time a).rankLE (time b), (time a).isNaN = false :=
    fun a ha => hnumber a (List.mem_mergeSort.1 ha)
  unfold ordered at ha
  generalize as.mergeSort (fun a b => (time a).rankLE (time b)) = sorted at *
  cases sorted with
  | nil => cases ha
  | cons kept rest => exact find?_of_mem_dedup_go hsorted hnumber ha

-- The order is stable: what has one bit pattern for a time stays as it was given.
theorem filter_mergeSort (time : α → Time) (as : List α) (t : Time) :
    (as.mergeSort fun a b => (time a).rankLE (time b)).filter (time · = t)
      =
    as.filter (time · = t) := by
  have hordered : (as.filter (time · = t)).Pairwise fun a b => (time a).rankLE (time b) := by
    apply List.pairwise_of_forall_mem_list
    intro a ha b hb
    simp only [List.mem_filter, decide_eq_true_eq] at ha hb
    rw [ha.2, hb.2]
    unfold Time.rankLE
    simp
  have hkept : (as.filter (time · = t)).Sublist
      (as.mergeSort fun a b => (time a).rankLE (time b)) :=
    List.sublist_mergeSort (fun a b c => Time.rankLE_trans (time a) (time b) (time c))
      (fun a b => Time.rankLE_total (time a) (time b)) hordered List.filter_sublist
  have hsublist := hkept.filter (time · = t)
  simp only [List.filter_filter, Bool.and_self] at hsublist
  have hperm := (List.mergeSort_perm as fun a b => (time a).rankLE (time b)).filter (time · = t)
  exact (hsublist.eq_of_length hperm.length_eq.symm).symm

theorem find?_mergeSort (time : α → Time) (as : List α) (t : Time) :
    (as.mergeSort fun a b => (time a).rankLE (time b)).find? (time · = t)
      =
    as.find? (time · = t) := by
  rw [← List.head?_filter, filter_mergeSort, List.head?_filter]

end Ordered

end SampleTimes

namespace TimeSamples

/--
Whether a sample is the first one of a list at its time. One at the positive zero is not if there is
one at the negative zero.
-/
structure FirstAt (entries : List (Time × Value)) (entry : Time × Value) : Prop where
  find? : entries.find? (·.1 = entry.1) = some entry
  zero : entry.1 = .zero → ∀ other ∈ entries, other.1 ≠ .negativeZero

section FirstAt

variable {entries : List (Time × Value)} {entry other : Time × Value}

theorem FirstAt.mem (h : FirstAt entries entry) : entry ∈ entries :=
  List.mem_of_find?_eq_some h.find?

theorem FirstAt.eq_of_sameAs (h : FirstAt entries entry) (hother : FirstAt entries other)
    (hsame : entry.1.sameAs other.1) : entry = other := by
  rcases Time.eq_or_zeros_of_sameAs hsame with heq | ⟨hzero, hnegative⟩ | ⟨hnegative, hzero⟩
  . have hfind := h.find?
    rw [heq, hother.find?] at hfind
    exact (Option.some.inj hfind).symm
  . exact absurd hnegative (h.zero hzero other hother.mem)
  . exact absurd hnegative (hother.zero hzero entry h.mem)

theorem firstAt_of_mem_ordered (hnumber : ∀ entry ∈ entries, entry.1.isNaN = false)
    (hmem : entry ∈ SampleTimes.ordered (·.1) entries) : FirstAt entries entry := by
  obtain ⟨hself, front, back, hsorted, hfront⟩ := List.find?_eq_some_iff_append.1
    (SampleTimes.find?_of_mem_ordered hnumber hmem)
  have hfront : ∀ other ∈ front, ¬ other.1.sameAs entry.1 := by simpa using hfront
  constructor
  . rw [← SampleTimes.find?_mergeSort, List.find?_eq_some_iff_append]
    refine ⟨by simp, front, back, hsorted, fun other hother => ?_⟩
    have hdiffers := hfront other hother
    grind
  . intro hzero other hother hnegative
    have hrank := SampleTimes.mergeSort_rankLE_pairwise (·.1) entries
    have hother : other ∈ entries.mergeSort fun a b => a.1.rankLE b.1 :=
      List.mem_mergeSort.2 hother
    rw [hsorted] at hrank hother
    rcases List.mem_append.1 hother with hother | hother
    . apply hfront other hother
      rw [hzero, hnegative]
      rfl
    . rcases List.mem_cons.1 hother with heq | hother
      . rw [heq, hzero] at hnegative
        exact absurd hnegative (by decide)
      . have hle := List.rel_of_pairwise_cons (List.pairwise_append.1 hrank).2.1 hother
        rw [hzero, hnegative] at hle
        exact absurd hle (by decide)

end FirstAt

/--
The sample of a list that is held at a time: of those at or before it the latest, or the earliest of
all if there is none. Of several samples at one time it is the first one.
-/
inductive Held (entries : List (Time × Value)) (t : Time) (entry : Time × Value) : Prop where
  | latest (first : FirstAt entries entry) (le : entry.1.atOrBefore t)
      (greatest : ∀ other ∈ entries, other.1.atOrBefore t → other.1.atOrBefore entry.1)
  | earliest (first : FirstAt entries entry) (behind : ∀ other ∈ entries, t.before other.1)
      (least : ∀ other ∈ entries, entry.1.atOrBefore other.1)

section Held

variable {entries : List (Time × Value)} {t : Time} {entry other : Time × Value}

theorem Held.firstAt (h : Held entries t entry) : FirstAt entries entry := by
  cases h with
  | latest first le greatest => exact first
  | earliest first behind least => exact first

theorem Held.sameAs (h : Held entries t entry) (hother : Held entries t other) :
    entry.1.sameAs other.1 := by
  have hmem := h.firstAt.mem
  have hotherMem := hother.firstAt.mem
  cases h with
  | latest _ le greatest =>
    have := greatest other hotherMem
    cases hother with
    | latest _ otherLe otherGreatest =>
      have := otherGreatest entry hmem
      grind
    | earliest _ behind _ =>
      have := behind entry hmem
      grind
  | earliest _ behind least =>
    have := behind other hotherMem
    have := least other hotherMem
    cases hother with
    | latest _ otherLe _ => grind
    | earliest _ _ otherLeast =>
      have := otherLeast entry hmem
      grind

theorem Held.eq (h : Held entries t entry) (hother : Held entries t other) : entry = other :=
  h.firstAt.eq_of_sameAs hother.firstAt (h.sameAs hother)

-- The times that are kept are the ones that were given, each of them as a number.
theorem held_of_inForce (hnumber : ∀ entry ∈ entries, entry.1.isNaN = false) (ht : t.isNaN = false)
    (hmem : entry ∈ SampleTimes.ordered (·.1) entries)
    (h : SampleTimes.InForce ((SampleTimes.ordered (·.1) entries).map (·.1)) t entry.1) :
    Held entries t entry := by
  have hascending : ((SampleTimes.ordered (·.1) entries).map (·.1)).Pairwise
      fun a b => a.before b :=
    List.pairwise_map.2 (SampleTimes.ordered_pairwise _ hnumber)
  have hkept : ∀ other ∈ entries, ∃ s ∈ (SampleTimes.ordered (·.1) entries).map (·.1),
      s.sameAs other.1 := by
    intro other hother
    obtain ⟨kept, hkept, hsame⟩ := SampleTimes.exists_mem_ordered (·.1) hnumber hother
    exact ⟨kept.1, List.mem_map_of_mem hkept, hsame⟩
  have hfirst := firstAt_of_mem_ordered hnumber hmem
  cases h with
  | latest _ le greatest =>
    refine .latest hfirst le ?_
    intro other hother hle
    obtain ⟨s, hs, hsame⟩ := hkept other hother
    have := greatest s hs
    grind
  | first head behind =>
    refine .earliest hfirst ?_ ?_
    . intro other hother
      obtain ⟨s, hs, hsame⟩ := hkept other hother
      have := behind s hs
      grind
    . intro other hother
      obtain ⟨s, hs, hsame⟩ := hkept other hother
      have := SampleTimes.eq_or_before_of_head? hascending head hs
      grind

end Held

theorem exists_ofList? {entries : List (Time × Value)} (hne : entries ≠ []) :
    ∃ samples, ofList? entries = some samples := by
  have hsorted : (entries.mergeSort fun a b => a.1.rankLE b.1) ≠ [] := by
    rwa [← List.length_pos_iff, List.length_mergeSort, List.length_pos_iff]
  unfold ofList?
  exact ⟨_, dif_neg hsorted⟩

theorem Ascending.inForce_index {samples : TimeSamples} (h : samples.Ascending) (t : Time) :
    ∃ entry, samples.entries[samples.index t]? = some entry ∧
      SampleTimes.InForce (samples.entries.map (·.1)) t entry.1 := by
  have hindex := samples.index_lt t
  have hcount : ((samples.entries.map (·.1)).takeWhile (·.atOrBefore t)).length
      = samples.partitionPoint (·.atOrBefore t) := by
    rw [List.takeWhile_map, List.length_map]
    exact (partitionPoint_eq_length_takeWhile (p := (·.atOrBefore t)) (h.leads t)).symm
  have hforce := SampleTimes.inForce_getElem (List.pairwise_map.2 h.ascending) t
    (by rwa [hcount, List.length_map])
  simp only [hcount, List.getElem_map] at hforce
  exact ⟨_, List.getElem?_eq_getElem hindex, hforce⟩

-- Without two samples at one time there is only one way to order them.
theorem ofList?_eq_of_perm {entries others : List (Time × Value)} (h : entries.Perm others)
    (hnodup : (entries.map (·.1)).Nodup) : ofList? entries = ofList? others := by
  have hsorted : (entries.mergeSort fun a b => a.1.rankLE b.1)
      = others.mergeSort fun a b => a.1.rankLE b.1 := by
    refine List.Perm.eq_of_pairwise ?_ (SampleTimes.mergeSort_rankLE_pairwise (·.1) entries)
      (SampleTimes.mergeSort_rankLE_pairwise (·.1) others) ?_
    . intro a b ha hb hab hba
      rw [List.mem_mergeSort] at ha hb
      exact List.inj_on_of_nodup_map hnodup ha (h.mem_iff.2 hb) (Time.rankLE_antisymm hab hba)
    . exact ((List.mergeSort_perm entries _).trans h).trans (List.mergeSort_perm others _).symm
  unfold ofList?
  simp only [hsorted]

theorem ofList?_valueAt_eq_held {entries : List (Time × Value)} (hne : entries ≠ [])
    (hnumber : ∀ entry ∈ entries, entry.1.isNaN = false) {t : Time} (ht : t.isNaN = false) :
    ∃ samples entry, ofList? entries = some samples ∧
      samples.entries[samples.index t]? = some entry ∧ samples.valueAt t = entry.2 ∧
      (∀ other, Held entries t other ↔ other = entry) ∧
      ∀ others, entries.Perm others → (entries.map (·.1)).Nodup →
        ofList? others = some samples := by
  obtain ⟨samples, hsamples⟩ := exists_ofList? hne
  obtain ⟨entry, hentry, hforce⟩ := (ascending_of_ofList? hnumber hsamples).inForce_index t
  have hmem := List.mem_of_getElem? hentry
  rw [entries_of_ofList? hsamples] at hmem hforce
  have hheld := held_of_inForce hnumber ht hmem hforce
  refine ⟨samples, entry, hsamples, hentry, ?_, ?_, ?_⟩
  . have hindex := samples.index_lt t
    rw [List.getElem?_eq_getElem hindex] at hentry
    exact congrArg Prod.snd (Option.some.inj hentry)
  . intro other
    constructor
    . exact fun hother => hother.eq hheld
    . intro heq
      rwa [heq]
  . intro others hperm hnodup
    rw [← ofList?_eq_of_perm hperm hnodup, hsamples]

-- The samples at both zeros are at one time. The one at the negative zero is held, in any order.
theorem ofList?_valueAt_eq_held_signed :
    let half : Time := ⟨0x3f000000⟩
    let one : Time := ⟨0x3f800000⟩
    let entries : List (Time × Value) :=
      [(one, .int 1), (.zero, .int 2), (.negativeZero, .int 3)]
    entries ≠ [] ∧ (∀ entry ∈ entries, entry.1.isNaN = false) ∧ half.isNaN = false ∧
      entries.Perm entries.reverse ∧ (entries.map (·.1)).Nodup ∧
      ∃ samples, ofList? entries = some samples ∧ ofList? entries.reverse = some samples ∧
        samples.index half < samples.entries.length ∧ samples.valueAt half = .int 3 := by
  intro half one entries
  have hne : entries ≠ [] := List.cons_ne_nil _ _
  have hnumber : ∀ entry ∈ entries, entry.1.isNaN = false := by decide
  have hperm : entries.Perm entries.reverse := entries.reverse_perm.symm
  have hnodup : (entries.map (·.1)).Nodup := by decide
  have hheld : Held entries half (.negativeZero, .int 3) :=
    .latest ⟨rfl, by decide⟩ (by decide) (by decide)
  obtain ⟨samples, entry, hsamples, hentry, hvalue, hiff, hany⟩ :=
    ofList?_valueAt_eq_held hne hnumber (t := half) rfl
  rw [← (hiff _).1 hheld] at hvalue
  exact ⟨hne, hnumber, rfl, hperm, hnodup, samples, hsamples, hany _ hperm hnodup,
    (List.getElem?_eq_some_iff.1 hentry).1, hvalue⟩

end TimeSamples

end SceneTree
