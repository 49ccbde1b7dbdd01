import SceneTree.Proofs.Sampled.Latest

/-!
This module contains that times can be merged in any order and in any groups. Times that are in order
are told by how often each of them stands among them: a NaN as often as it was given, a number once,
and of the zeros only the negative one if both were given. Putting some of the times in order before
the others are added changes none of these counts.
-/

namespace SceneTree

namespace Time

-- The bit patterns between two numbers are numbers.
theorem isNaN_eq_false_of_rankLE {a b c : Time} (hab : a.rankLE b) (hbc : b.rankLE c)
    (ha : a.isNaN = false) (hc : c.isNaN = false) : b.isNaN = false := by
  unfold rankLE rank at hab hbc
  unfold isNaN at *
  simp only [decide_eq_true_eq, decide_eq_false_iff_not] at *
  cases hsignA : a.isNegative <;> cases hsignB : b.isNegative <;> cases hsignC : c.isNegative
  all_goals
    simp only [hsignA, hsignB, hsignC, if_true, if_false, Bool.false_eq_true] at hab hbc
    omega

theorem zero_ne_negativeZero : zero ≠ negativeZero := by
  decide

end Time

namespace SampleTimes

section Count

variable {kept t : Time} {as : List Time}

theorem count_dedup_go_of_isNaN (kept : Time) (as : List Time) (ht : t.isNaN) :
    (dedup.go Time.sameAs kept as).count t = (kept :: as).count t := by
  induction as generalizing kept with
  | nil => rfl
  | cons b rest ih =>
    unfold dedup.go
    split
    . next hsame =>
      have hne : b ≠ t := by
        intro heq
        have := (Time.sameAs_iff.1 hsame).2.1
        grind
      rw [ih, List.count_cons, List.count_cons, List.count_cons_of_ne hne]
    . simp only [List.count_cons, ih]

-- The elements that agree with the one that was kept follow it directly.
theorem sameAs_of_sameAs_mem {b c : Time} {rest : List Time}
    (h : (kept :: b :: rest).Pairwise fun a b => a.rankLE b) (hc : c ∈ b :: rest)
    (hsame : kept.sameAs c) : kept.sameAs b := by
  obtain ⟨hkept, hrest⟩ := List.pairwise_cons.1 h
  have hkeptB := hkept b List.mem_cons_self
  obtain ⟨hkeptNumber, hcNumber, hposition⟩ := Time.sameAs_iff.1 hsame
  rcases List.mem_cons.1 hc with heq | hc
  . exact heq ▸ hsame
  . have hbc := List.rel_of_pairwise_cons hrest hc
    have hnumber := Time.isNaN_eq_false_of_rankLE hkeptB hbc hkeptNumber hcNumber
    have hle := Time.position_le_of_rankLE hkeptB
    have hge := Time.position_le_of_rankLE hbc
    exact Time.sameAs_iff.2 ⟨hkeptNumber, hnumber, by omega⟩

theorem dedup_go_differ (h : (kept :: as).Pairwise fun a b => a.rankLE b) :
    (dedup.go Time.sameAs kept as).Pairwise fun a b => ¬a.sameAs b := by
  induction as generalizing kept with
  | nil => exact List.pairwise_singleton _ kept
  | cons b rest ih =>
    obtain ⟨hkept, hrest⟩ := List.pairwise_cons.1 h
    unfold dedup.go
    split
    . exact ih (h.sublist ((List.sublist_cons_self b rest).cons_cons kept))
    . next hdiffers =>
      refine List.pairwise_cons.2 ⟨fun c hc hsame => hdiffers ?_, ih hrest⟩
      exact sameAs_of_sameAs_mem h ((dedup_go_sublist b rest).subset hc) hsame

theorem count_le_one_of_differ (h : as.Pairwise fun a b => ¬a.sameAs b) (ht : t.isNaN = false) :
    as.count t ≤ 1 := by
  induction as with
  | nil => exact Nat.zero_le 1
  | cons a rest ih =>
    obtain ⟨ha, hrest⟩ := List.pairwise_cons.1 h
    by_cases heq : a = t
    . subst heq
      have hnone : rest.count a = 0 :=
        List.count_eq_zero_of_not_mem fun hmem => ha a hmem (Time.sameAs_self ht)
      rw [List.count_cons_self]
      omega
    . rw [List.count_cons_of_ne heq]
      exact ih hrest

/--
Whether a time is one of those that stay: any that was given, but not the positive zero if the
negative one was given as well.
-/
def Stays (as : List Time) (t : Time) : Prop :=
  t ∈ as ∧ (t = .zero → .negativeZero ∉ as)

instance (as : List Time) (t : Time) : Decidable (Stays as t) :=
  inferInstanceAs (Decidable (_ ∧ _))

theorem mem_dedup_go_iff (h : (kept :: as).Pairwise fun a b => a.rankLE b) (t : Time) :
    t ∈ dedup.go Time.sameAs kept as ↔ Stays (kept :: as) t := by
  induction as generalizing kept with
  | nil =>
    have hzeros := Time.zero_ne_negativeZero
    unfold dedup.go Stays
    grind
  | cons b rest ih =>
    have hzeros := Time.zero_ne_negativeZero
    obtain ⟨hkept, hrest⟩ := List.pairwise_cons.1 h
    have hnotBehind (hzero : kept = .zero) : Time.negativeZero ∉ b :: rest := by
      intro hmem
      have := hkept _ hmem
      rw [hzero] at this
      exact absurd this (by decide)
    unfold dedup.go
    split
    . next hsame =>
      rw [ih (h.sublist ((List.sublist_cons_self b rest).cons_cons kept))]
      unfold Stays
      rcases Time.eq_or_zeros_of_sameAs hsame with heq | ⟨hzero, hnegative⟩ | ⟨hnegative, hzero⟩
      . grind
      . exact absurd (hnegative ▸ List.mem_cons_self) (hnotBehind hzero)
      . grind
    . next hdiffers =>
      have hfront (hmem : Time.zero ∈ b :: rest) : kept ≠ .negativeZero := by
        intro hnegative
        exact hdiffers (sameAs_of_sameAs_mem h hmem (hnegative ▸ rfl))
      rw [List.mem_cons, ih hrest]
      unfold Stays
      grind

def orderedCount (as : List Time) (t : Time) : Nat :=
  if t.isNaN then as.count t else if Stays as t then 1 else 0

theorem count_dedup (h : as.Pairwise fun a b => a.rankLE b) (t : Time) :
    (dedup Time.sameAs as).count t = orderedCount as t := by
  cases as with
  | nil => simp [dedup, orderedCount, Stays]
  | cons kept rest =>
    unfold orderedCount
    split
    . next hnan => exact count_dedup_go_of_isNaN kept rest hnan
    . next hnumber =>
      have ht : t.isNaN = false := by simpa using hnumber
      have hle : (dedup.go Time.sameAs kept rest).count t ≤ 1 :=
        count_le_one_of_differ (dedup_go_differ h) ht
      have hmem := mem_dedup_go_iff h t
      rw [← List.count_pos_iff] at hmem
      change (dedup.go Time.sameAs kept rest).count t = _
      split
      . next hstays => exact Nat.le_antisymm hle (hmem.2 hstays)
      . next hstays => exact Nat.eq_zero_of_not_pos (mt hmem.1 hstays)

end Count

section Perm

variable {as bs : List Time}

theorem Stays.perm (h : as.Perm bs) (t : Time) : Stays as t ↔ Stays bs t := by
  unfold Stays
  rw [h.mem_iff, h.mem_iff]

theorem orderedCount_perm (h : as.Perm bs) (t : Time) : orderedCount as t = orderedCount bs t := by
  unfold orderedCount
  simp only [h.count_eq, Stays.perm h]

theorem count_ordered (as : List Time) (t : Time) :
    (ordered id as).count t = orderedCount as t := by
  have hsorted := mergeSort_rankLE_pairwise id as
  exact (count_dedup hsorted t).trans (orderedCount_perm (List.mergeSort_perm as _) t)

theorem mem_ordered_iff (as : List Time) (t : Time) : t ∈ ordered id as ↔ Stays as t := by
  rw [← Stays.perm (List.mergeSort_perm as _)]
  have hsorted := mergeSort_rankLE_pairwise id as
  unfold ordered
  generalize as.mergeSort (fun a b => (id a).rankLE (id b)) = sorted at *
  cases sorted with
  | nil => simp [dedup, Stays]
  | cons kept rest => exact mem_dedup_go_iff hsorted t

-- There is only one way to bring times that are as often the same into order.
theorem ordered_congr (h : ∀ t, orderedCount as t = orderedCount bs t) :
    ordered id as = ordered id bs := by
  have hsorted (cs : List Time) : (ordered id cs).Pairwise fun a b => a.rankLE b :=
    (mergeSort_rankLE_pairwise id cs).sublist dedup_sublist
  refine List.Perm.eq_of_pairwise (fun a b _ _ => Time.rankLE_antisymm) (hsorted as) (hsorted bs) ?_
  rw [List.perm_iff_count]
  intro t
  rw [count_ordered, count_ordered, h]

theorem ordered_perm (h : as.Perm bs) : ordered id as = ordered id bs :=
  ordered_congr (orderedCount_perm h)

theorem orderedCount_ordered_append (as bs : List Time) (t : Time) :
    orderedCount (ordered id as ++ bs) t = orderedCount (as ++ bs) t := by
  have hstays : Stays (ordered id as ++ bs) t ↔ Stays (as ++ bs) t := by
    have hzeros := Time.zero_ne_negativeZero
    have ht := mem_ordered_iff as t
    have hnegative := mem_ordered_iff as .negativeZero
    unfold Stays at *
    grind
  unfold orderedCount
  split
  . next hnan =>
    rw [List.count_append, List.count_append, count_ordered, orderedCount, if_pos hnan]
  . simp only [hstays]

theorem ordered_ordered_append (as bs : List Time) :
    ordered id (ordered id as ++ bs) = ordered id (as ++ bs) :=
  ordered_congr (orderedCount_ordered_append as bs)

theorem ordered_append_ordered (as bs : List Time) :
    ordered id (as ++ ordered id bs) = ordered id (as ++ bs) :=
  calc ordered id (as ++ ordered id bs)
    _ = ordered id (ordered id bs ++ as) := ordered_perm List.perm_append_comm
    _ = ordered id (bs ++ as) := ordered_ordered_append bs as
    _ = ordered id (as ++ bs) := ordered_perm List.perm_append_comm

end Perm

theorem merge_static (times : SampleTimes) : times.merge static = times := by
  cases times <;> rfl

theorem unbounded_merge (times : SampleTimes) : unbounded.merge times = unbounded := by
  cases times <;> rfl

theorem merge_comm (a b : SampleTimes) : a.merge b = b.merge a := by
  cases a with
  | static => rw [static_merge, merge_static]
  | unbounded => rw [unbounded_merge, merge_unbounded]
  | samples as =>
    cases b with
    | static => rw [static_merge, merge_static]
    | unbounded => rw [unbounded_merge, merge_unbounded]
    | samples bs => rw [merge_samples, merge_samples, ordered_perm List.perm_append_comm]

theorem merge_assoc (a b c : SampleTimes) : (a.merge b).merge c = a.merge (b.merge c) := by
  cases a with
  | static => rw [static_merge, static_merge]
  | unbounded => rw [unbounded_merge, unbounded_merge, unbounded_merge]
  | samples as =>
    cases b with
    | static => rw [merge_static, static_merge]
    | unbounded => rw [merge_unbounded, unbounded_merge, merge_unbounded]
    | samples bs =>
      cases c with
      | static => rw [merge_static, merge_static]
      | unbounded => rw [merge_unbounded, merge_unbounded, merge_unbounded]
      | samples cs =>
        simp only [merge_samples]
        rw [ordered_ordered_append, ordered_append_ordered, List.append_assoc]

instance : Std.Commutative SampleTimes.merge := ⟨merge_comm⟩

instance : Std.Associative SampleTimes.merge := ⟨merge_assoc⟩

theorem foldl_merge_cons (times : SampleTimes) (rest : List SampleTimes) :
    (times :: rest).foldl merge static = times.merge (rest.foldl merge static) := by
  calc (times :: rest).foldl merge static
    _ = rest.foldl merge (times.merge static) := by rw [List.foldl_cons, static_merge, merge_static]
    _ = times.merge (rest.foldl merge static) := List.foldl_assoc

theorem merge_samples_of_numbers {as bs : List Time} (hnumber : ∀ t ∈ as ++ bs, t.isNaN = false) :
    ∃ times, (samples as).merge (samples bs) = samples times ∧
      (times.Pairwise fun a b => a.before b) ∧ (∀ s ∈ times, s ∈ as ++ bs) ∧
      ∀ t ∈ as ++ bs, ∃ s ∈ times, s.sameAs t :=
  ⟨_, merge_samples as bs, ordered_pairwise id hnumber, fun _ => mem_of_mem_ordered,
    fun _ => exists_mem_ordered id hnumber⟩

end SampleTimes

namespace Sampled

/-! ## The times of several sources -/

section MergedTimes

variable {sources others : List Sampled} (first last : Time)

theorem mergedTimes?_cons (s : Sampled) (rest : List Sampled) :
    mergedTimes? (s :: rest) first last
      =
    (s.timesIn? first last).bind fun times =>
      (mergedTimes? rest first last).map times.merge := by
  unfold mergedTimes?
  rw [List.mapM_cons]
  cases s.timesIn? first last with
  | none => rfl
  | some times =>
    cases rest.mapM (·.timesIn? first last) with
    | none => rfl
    | some restTimes => exact congrArg some (SampleTimes.foldl_merge_cons times restTimes)

theorem mergedTimes?_append (as bs : List Sampled) :
    mergedTimes? (as ++ bs) first last
      =
    (mergedTimes? as first last).bind fun times =>
      (mergedTimes? bs first last).map times.merge := by
  induction as with
  | nil =>
    change mergedTimes? bs first last = (mergedTimes? bs first last).map SampleTimes.static.merge
    cases mergedTimes? bs first last with
    | none => rfl
    | some times => exact congrArg some (SampleTimes.static_merge times).symm
  | cons s rest ih =>
    rw [List.cons_append, mergedTimes?_cons, mergedTimes?_cons, ih]
    cases s.timesIn? first last with
    | none => rfl
    | some times =>
      cases mergedTimes? rest first last with
      | none => rfl
      | some restTimes =>
        cases mergedTimes? bs first last with
        | none => rfl
        | some others => exact congrArg some (SampleTimes.merge_assoc times restTimes others).symm

theorem mergedTimes?_append_comm (as bs : List Sampled) :
    mergedTimes? (as ++ bs) first last = mergedTimes? (bs ++ as) first last := by
  rw [mergedTimes?_append, mergedTimes?_append]
  cases mergedTimes? as first last with
  | none => cases mergedTimes? bs first last <;> rfl
  | some times =>
    cases mergedTimes? bs first last with
    | none => rfl
    | some others => exact congrArg some (SampleTimes.merge_comm times others)

theorem mergedTimes?_perm (h : sources.Perm others) :
    mergedTimes? sources first last = mergedTimes? others first last := by
  induction h with
  | nil => rfl
  | cons s _ ih => rw [mergedTimes?_cons, mergedTimes?_cons, ih]
  | swap s t rest =>
    change mergedTimes? ([t, s] ++ rest) first last = mergedTimes? ([s, t] ++ rest) first last
    have hswap : mergedTimes? [t, s] first last = mergedTimes? [s, t] first last :=
      mergedTimes?_append_comm first last [t] [s]
    rw [mergedTimes?_append, mergedTimes?_append, hswap]
  | trans _ _ hfirst hsecond => exact hfirst.trans hsecond

def groupedTimes? (groups : List (List Sampled)) : Option SampleTimes := do
  let times ← groups.mapM (mergedTimes? · first last)
  return times.foldl SampleTimes.merge .static

theorem groupedTimes?_eq (groups : List (List Sampled)) :
    groupedTimes? first last groups = mergedTimes? groups.flatten first last := by
  induction groups with
  | nil => rfl
  | cons group rest ih =>
    rw [List.flatten_cons, mergedTimes?_append, ← ih]
    unfold groupedTimes?
    rw [List.mapM_cons]
    cases mergedTimes? group first last with
    | none => rfl
    | some times =>
      cases rest.mapM (mergedTimes? · first last) with
      | none => rfl
      | some restTimes => exact congrArg some (SampleTimes.foldl_merge_cons times restTimes)

end MergedTimes

theorem merge_laws_and_groupedTimes?_eq :
    (∀ a b c : SampleTimes, (a.merge b).merge c = a.merge (b.merge c)) ∧
    (∀ a b : SampleTimes, a.merge b = b.merge a) ∧
    (∀ a : SampleTimes, SampleTimes.static.merge a = a ∧ a.merge .static = a) ∧
    (∀ a : SampleTimes, SampleTimes.unbounded.merge a = .unbounded ∧
      a.merge .unbounded = .unbounded) ∧
    (∀ as bs : List Time, (∀ t ∈ as ++ bs, t.isNaN = false) →
      ∃ times, (SampleTimes.samples as).merge (.samples bs) = .samples times ∧
        (times.Pairwise fun a b => a.before b) ∧ (∀ s ∈ times, s ∈ as ++ bs) ∧
        ∀ t ∈ as ++ bs, ∃ s ∈ times, s.sameAs t) ∧
    ∀ (sources : List Sampled) (groups : List (List Sampled)) (first last : Time),
      groups.flatten.Perm sources →
        groupedTimes? first last groups = mergedTimes? sources first last := by
  refine ⟨SampleTimes.merge_assoc, SampleTimes.merge_comm, ?_, ?_, ?_, ?_⟩
  . exact fun a => ⟨SampleTimes.static_merge a, SampleTimes.merge_static a⟩
  . exact fun a => ⟨SampleTimes.unbounded_merge a, SampleTimes.merge_unbounded a⟩
  . exact fun as bs => SampleTimes.merge_samples_of_numbers
  . intro sources groups first last hperm
    rw [groupedTimes?_eq, mergedTimes?_perm first last hperm]

-- Of both zeros the negative one stays, and a pair that is merged first leaves the same times.
theorem merge_laws_and_groupedTimes?_eq_signed :
    let one : Time := ⟨0x3f800000⟩
    let outer : TimeSamples := ⟨[(.zero, .int 1), (one, .int 2)], by simp⟩
    let inner : TimeSamples := ⟨[(.negativeZero, .int 3), (one, .int 4)], by simp⟩
    let groups := [[constant (.int 5), held inner], [held outer]]
    let sources := [held outer, constant (.int 5), held inner]
    (∀ t ∈ [.zero, one] ++ [.negativeZero, one], t.isNaN = false) ∧
      groups.flatten.Perm sources ∧
      (SampleTimes.samples [.zero, one]).merge (.samples [.negativeZero, one])
        = .samples [.negativeZero, one] ∧
      ([.negativeZero, one].Pairwise fun a b => a.before b) ∧
      groupedTimes? .zero one groups = mergedTimes? sources .zero one := by
  intro one outer inner groups sources
  have hnumber : ∀ t ∈ [.zero, one] ++ [.negativeZero, one], t.isNaN = false := by decide
  have hperm : groups.flatten.Perm sources := by
    have hswap : ([constant (.int 5), held inner] ++ [held outer]).Perm sources :=
      List.perm_append_comm
    exact hswap
  have hmerge : (SampleTimes.samples [.zero, one]).merge (.samples [.negativeZero, one])
      = .samples [.negativeZero, one] := by
    have hsorted : ([.zero, one] ++ [.negativeZero, one]).Perm [.negativeZero, .zero, one, one] := by
      decide
    rw [SampleTimes.merge_samples, SampleTimes.ordered_perm hsorted]
    unfold SampleTimes.ordered
    rw [List.mergeSort_of_pairwise (by decide)]
    rfl
  obtain ⟨_, _, _, _, hmembers, hgroups⟩ := merge_laws_and_groupedTimes?_eq
  obtain ⟨times, htimes, hascending, _⟩ := hmembers _ _ hnumber
  cases hmerge.symm.trans htimes
  exact ⟨hnumber, hperm, hmerge, hascending, hgroups sources groups _ _ hperm⟩

end Sampled

end SceneTree
