import SceneTree.Sampled

/-!
This module contains the order that the times of samples are brought into: by bit patterns, without
neighbours at one time. As long as every time is a number it ascends strictly, and no time is lost.
-/

namespace SceneTree

namespace Time

variable {a b : Time}

@[grind =]
theorem atOrBefore_iff
    : a.atOrBefore b = true ↔ a.isNaN = false ∧ b.isNaN = false ∧ a.position ≤ b.position := by
  unfold atOrBefore
  simp [and_assoc]

@[grind =]
theorem before_iff
    : a.before b = true ↔ a.isNaN = false ∧ b.isNaN = false ∧ a.position < b.position := by
  unfold before
  simp [and_assoc]

@[grind =]
theorem sameAs_iff
    : a.sameAs b = true ↔ a.isNaN = false ∧ b.isNaN = false ∧ a.position = b.position := by
  unfold sameAs
  simp [and_assoc]

theorem sameAs_self (h : a.isNaN = false) : a.sameAs a :=
  sameAs_iff.2 ⟨h, h, rfl⟩

-- The bit patterns tell the zeros of both signs apart, in an order that the numbers allow.
theorem position_le_of_rankLE (h : a.rankLE b) : a.position ≤ b.position := by
  unfold rankLE rank at h
  unfold position
  simp only [decide_eq_true_eq] at h
  cases hsign : a.isNegative <;> cases hother : b.isNegative
  all_goals
    simp only [hsign, hother, if_true, if_false, Bool.false_eq_true] at h ⊢
    omega

theorem rankLE_trans (a b c : Time) (hab : a.rankLE b) (hbc : b.rankLE c) : a.rankLE c := by
  unfold rankLE at *
  grind

theorem rankLE_total (a b : Time) : a.rankLE b || b.rankLE a := by
  unfold rankLE
  grind

theorem rankLE_antisymm (hab : a.rankLE b) (hba : b.rankLE a) : a = b := by
  unfold rankLE at hab hba
  have hrank : a.rank = b.rank := by grind
  unfold rank at hrank
  cases hsign : a.isNegative <;> cases hother : b.isNegative
  all_goals
    simp only [hsign, hother, if_true, if_false, Bool.false_eq_true] at hrank
  . exact eq_of_magnitude_eq (hsign.trans hother.symm) (by omega)
  . omega
  . omega
  . exact eq_of_magnitude_eq (hsign.trans hother.symm) (by omega)

end Time

namespace SampleTimes

section Dedup

variable {α : Type} {same : α → α → Bool} {as : List α} {a : α}

theorem mem_dedup_go_self (kept : α) (as : List α) : kept ∈ dedup.go same kept as := by
  induction as with
  | nil => exact List.mem_singleton_self kept
  | cons b rest ih =>
    unfold dedup.go
    split
    . exact ih
    . exact List.mem_cons_self

theorem dedup_go_sublist (kept : α) (as : List α) :
    (dedup.go same kept as).Sublist (kept :: as) := by
  induction as generalizing kept with
  | nil => exact List.Sublist.refl _
  | cons b rest ih =>
    unfold dedup.go
    split
    . exact (ih kept).trans ((List.sublist_cons_self b rest).cons_cons kept)
    . exact (ih b).cons_cons kept

theorem dedup_sublist : (dedup same as).Sublist as := by
  cases as with
  | nil => exact List.Sublist.refl _
  | cons a rest => exact dedup_go_sublist a rest

-- What is dropped agrees with the element that was kept last.
theorem exists_mem_dedup_go {kept : α} (hrefl : ∀ b ∈ kept :: as, same b b) (h : a ∈ kept :: as) :
    ∃ b ∈ dedup.go same kept as, same b a := by
  induction as generalizing kept with
  | nil =>
    have heq : a = kept := List.mem_singleton.1 h
    exact ⟨kept, mem_dedup_go_self kept [], heq ▸ hrefl kept List.mem_cons_self⟩
  | cons b rest ih =>
    have hrest : ∀ c ∈ b :: rest, same c c := fun c hc => hrefl c (List.mem_cons_of_mem _ hc)
    unfold dedup.go
    split
    . next hsame =>
      by_cases heq : a = b
      . exact ⟨kept, mem_dedup_go_self kept rest, heq ▸ hsame⟩
      . exact ih (by grind) (by grind)
    . rcases List.mem_cons.1 h with heq | hmem
      . exact ⟨kept, List.mem_cons_self, heq ▸ hrefl kept List.mem_cons_self⟩
      . obtain ⟨c, hc, hsame⟩ := ih hrest hmem
        exact ⟨c, List.mem_cons_of_mem _ hc, hsame⟩

theorem exists_mem_dedup (hrefl : ∀ b ∈ as, same b b) (h : a ∈ as) :
    ∃ b ∈ dedup same as, same b a := by
  cases as with
  | nil => cases h
  | cons kept rest => exact exists_mem_dedup_go hrefl h

end Dedup

def ordered {α : Type} (time : α → Time) (as : List α) : List α :=
  dedup (fun a b => (time a).sameAs (time b)) (as.mergeSort fun a b => (time a).rankLE (time b))

section Ordered

variable {α : Type} {time : α → Time} {as : List α}

theorem dedup_go_pairwise {kept : α}
    (h : (kept :: as).Pairwise fun a b => (time a).atOrBefore (time b)) :
    (dedup.go (fun a b => (time a).sameAs (time b)) kept as).Pairwise
      fun a b => (time a).before (time b) := by
  induction as generalizing kept with
  | nil => exact List.pairwise_singleton _ kept
  | cons b rest ih =>
    obtain ⟨hkept, hrest⟩ := List.pairwise_cons.1 h
    unfold dedup.go
    split
    . refine ih (List.pairwise_cons.2 ⟨?_, hrest.of_cons⟩)
      exact fun c hc => hkept c (List.mem_cons_of_mem _ hc)
    . next hdiffers =>
      refine List.pairwise_cons.2 ⟨?_, ih hrest⟩
      intro c hc
      have hb := hkept b List.mem_cons_self
      have hc : c ∈ b :: rest := (dedup_go_sublist b rest).subset hc
      have hbc : c = b ∨ (time b).atOrBefore (time c) :=
        (List.mem_cons.1 hc).imp_right (List.rel_of_pairwise_cons hrest)
      grind

theorem dedup_pairwise (h : as.Pairwise fun a b => (time a).atOrBefore (time b)) :
    (dedup (fun a b => (time a).sameAs (time b)) as).Pairwise
      fun a b => (time a).before (time b) := by
  cases as with
  | nil => exact List.Pairwise.nil
  | cons kept rest => exact dedup_go_pairwise h

theorem mergeSort_rankLE_pairwise (time : α → Time) (as : List α) :
    (as.mergeSort fun a b => (time a).rankLE (time b)).Pairwise
      fun a b => (time a).rankLE (time b) :=
  List.pairwise_mergeSort (fun a b c => Time.rankLE_trans (time a) (time b) (time c))
    (fun a b => Time.rankLE_total (time a) (time b)) as

theorem mergeSort_pairwise (hnumber : ∀ a ∈ as, (time a).isNaN = false) :
    (as.mergeSort fun a b => (time a).rankLE (time b)).Pairwise
      fun a b => (time a).atOrBefore (time b) := by
  refine (mergeSort_rankLE_pairwise time as).imp_of_mem ?_
  intro a b ha hb hle
  rw [List.mem_mergeSort] at ha hb
  exact Time.atOrBefore_iff.2 ⟨hnumber a ha, hnumber b hb, Time.position_le_of_rankLE hle⟩

theorem ordered_pairwise (time : α → Time) (hnumber : ∀ a ∈ as, (time a).isNaN = false) :
    (ordered time as).Pairwise fun a b => (time a).before (time b) :=
  dedup_pairwise (mergeSort_pairwise hnumber)

theorem mem_of_mem_ordered {a : α} (h : a ∈ ordered time as) : a ∈ as :=
  List.mem_mergeSort.1 (dedup_sublist.subset h)

theorem exists_mem_ordered (time : α → Time) (hnumber : ∀ a ∈ as, (time a).isNaN = false) {a : α}
    (h : a ∈ as) :
    ∃ b ∈ ordered time as, (time b).sameAs (time a) := by
  refine exists_mem_dedup ?_ (List.mem_mergeSort.2 h)
  intro b hb
  rw [List.mem_mergeSort] at hb
  exact Time.sameAs_self (hnumber b hb)

end Ordered

theorem merge_samples (as bs : List Time) :
    (samples as).merge (samples bs) = samples (ordered id (as ++ bs)) :=
  rfl

theorem static_merge (times : SampleTimes) : static.merge times = times := by
  cases times <;> rfl

theorem merge_unbounded (times : SampleTimes) : times.merge unbounded = unbounded := by
  cases times <;> rfl

end SampleTimes

theorem TimeSamples.entries_of_ofList? {entries : List (Time × Value)} {samples : TimeSamples}
    (h : ofList? entries = some samples) :
    samples.entries = SampleTimes.ordered (·.1) entries := by
  unfold ofList? at h
  simp only at h
  split at h
  . cases h
  . cases h
    rfl

end SceneTree
