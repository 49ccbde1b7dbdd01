import SceneTree.Proofs.Sampled.Order

/-!
This module contains the search by halving in lists of samples. A condition that holds more often is
found to end later. If the samples that satisfy a condition lead, the search ends behind the last of
them.
-/

namespace SceneTree

namespace SampleTimes

-- The leading elements that satisfy a condition are all that do, if no later one does without them.
theorem lt_length_takeWhile_iff {α : Type} {p : α → Bool} {as : List α}
    (h : as.Pairwise fun a b => p b → p a) {i : Nat} (hi : i < as.length) :
    i < (as.takeWhile p).length ↔ p as[i] := by
  induction as generalizing i with
  | nil => cases hi
  | cons a rest ih =>
    obtain ⟨hfirst, hrest⟩ := List.pairwise_cons.1 h
    cases i with
    | zero => cases hp : p a <;> simp [hp]
    | succ i =>
      have hi : i < rest.length := Nat.lt_of_succ_lt_succ hi
      have hlater := hfirst rest[i] (List.getElem_mem hi)
      cases hp : p a with
      | true => simpa [hp] using ih hrest hi
      | false => simpa [hp] using hlater

end SampleTimes

namespace TimeSamples

variable (samples : TimeSamples)

theorem le_partitionFrom (p : Time → Bool) (first size : Nat) :
    first ≤ samples.partitionFrom p first size := by
  fun_induction partitionFrom samples p first size with
  | case1 first size hsize hholds => exact Nat.le_succ first
  | case2 first size hsize hholds => exact Nat.le_refl first
  | case3 first size hsize middle later ih =>
    refine Nat.le_trans ?_ ih
    dsimp only [later, middle]
    split <;> omega

theorem partitionFrom_le_add (p : Time → Bool) (first : Nat) {size : Nat} (hpos : 0 < size) :
    samples.partitionFrom p first size ≤ first + size := by
  fun_induction partitionFrom samples p first size with
  | case1 first size hsize hholds => omega
  | case2 first size hsize hholds => omega
  | case3 first size hsize middle later ih =>
    have hrest := ih (by omega)
    have hlater : later + (size - size / 2) ≤ first + size := by
      dsimp only [later, middle]
      split <;> omega
    omega

-- The last sample of a range is counted only if it satisfies the condition itself.
theorem partitionFrom_lt_add {p : Time → Bool} {first size : Nat} (hpos : 0 < size)
    (hlast : ¬ samples.holdsAt p (first + size - 1)) :
    samples.partitionFrom p first size < first + size := by
  fun_induction partitionFrom samples p first size with
  | case1 first size hsize hholds =>
    have hlast_eq : first + size - 1 = first := by omega
    rw [hlast_eq] at hlast
    exact absurd hholds hlast
  | case2 first size hsize hholds => omega
  | case3 first size hsize middle later ih =>
    by_cases hmiddle : samples.holdsAt p middle
    . have hlater : later = middle := if_pos hmiddle
      have hend : middle + (size - size / 2) = first + size := by omega
      rw [hlater, hend] at ih
      rw [hlater]
      exact ih (by omega) hlast
    . have hlater : later = first := if_neg hmiddle
      have hrest : 0 < size - size / 2 := by omega
      have hle := samples.partitionFrom_le_add p first hrest
      rw [hlater]
      omega

-- In an odd range the middle is the last sample of what is left before it.
theorem partitionFrom_le_middle {p : Time → Bool} {first size : Nat} (hsize : ¬ size ≤ 1)
    (hmiddle : ¬ samples.holdsAt p (first + size / 2)) :
    samples.partitionFrom p first (size - size / 2) ≤ first + size / 2 := by
  have hrest : 0 < size - size / 2 := by omega
  rcases Nat.mod_two_eq_zero_or_one size with heven | hodd
  . have hle := samples.partitionFrom_le_add p first hrest
    omega
  . have hlast : first + (size - size / 2) - 1 = first + size / 2 := by omega
    have hlt := samples.partitionFrom_lt_add hrest (hlast ▸ hmiddle)
    omega

theorem holdsAt_mono {p q : Time → Bool} (h : ∀ t, p t → q t) {i : Nat}
    (hholds : samples.holdsAt p i) : samples.holdsAt q i := by
  unfold holdsAt at *
  obtain ⟨entry, hentry, hp⟩ := (Option.any_eq_true _ _).1 hholds
  exact (Option.any_eq_true _ _).2 ⟨entry, hentry, h entry.1 hp⟩

-- Where the conditions differ in the middle of a range, the one ends there and the other behind it.
theorem partitionFrom_mono {p q : Time → Bool} (h : ∀ t, p t → q t) (first size : Nat) :
    samples.partitionFrom p first size ≤ samples.partitionFrom q first size := by
  fun_induction partitionFrom samples p first size with
  | case1 first size hsize hholds =>
    have hend : samples.partitionFrom q first size = first + 1 := by
      rw [partitionFrom, if_pos hsize, if_pos (samples.holdsAt_mono h hholds)]
    exact Nat.le_of_eq hend.symm
  | case2 first size hsize hholds => exact samples.le_partitionFrom q first size
  | case3 first size hsize middle later ih =>
    rw [partitionFrom.eq_def samples q, if_neg hsize]
    dsimp only
    by_cases hmiddle : samples.holdsAt p middle
    . have hlater : later = middle := if_pos hmiddle
      rw [hlater] at ih ⊢
      rw [if_pos (samples.holdsAt_mono h hmiddle)]
      exact ih
    . have hlater : later = first := if_neg hmiddle
      rw [hlater] at ih ⊢
      split
      . exact Nat.le_trans (samples.partitionFrom_le_middle hsize hmiddle)
          (samples.le_partitionFrom q middle (size - size / 2))
      . exact ih

theorem partitionPoint_mono {p q : Time → Bool} (h : ∀ t, p t → q t) :
    samples.partitionPoint p ≤ samples.partitionPoint q :=
  samples.partitionFrom_mono h 0 samples.entries.length

theorem partitionPoint_before_le {first v : Time} (h : first.atOrBefore v) :
    samples.partitionPoint (·.before first) ≤ samples.partitionPoint (·.atOrBefore v) :=
  samples.partitionPoint_mono (by grind)

theorem partitionPoint_atOrBefore_le {v last : Time} (h : v.atOrBefore last) :
    samples.partitionPoint (·.atOrBefore v) ≤ samples.partitionPoint (·.atOrBefore last) :=
  samples.partitionPoint_mono (by grind)

theorem holdsAt_eq (p : Time → Bool) {i : Nat} (hi : i < samples.entries.length) :
    samples.holdsAt p i = p samples.entries[i].1 := by
  unfold holdsAt
  rw [List.getElem?_eq_getElem hi]
  rfl

section Leading

variable {samples} {p : Time → Bool} (h : samples.entries.Pairwise fun a b => p b.1 → p a.1)

include h

theorem holdsAt_of_le {i j : Nat} (hle : i ≤ j) (hholds : samples.holdsAt p j) :
    samples.holdsAt p i := by
  have hj := lt_length_of_holdsAt hholds
  rcases Nat.eq_or_lt_of_le hle with heq | hlt
  . exact heq ▸ hholds
  . rw [samples.holdsAt_eq p hj] at hholds
    rw [samples.holdsAt_eq p (Nat.lt_trans hlt hj)]
    exact List.pairwise_iff_getElem.1 h i j _ hj hlt hholds

-- The samples before the range satisfy the condition, and those behind it do not.
theorem lt_partitionFrom_iff {first size : Nat} (hbefore : ∀ i, i < first → samples.holdsAt p i)
    (hbehind : ∀ i, first + size ≤ i → ¬ samples.holdsAt p i) (i : Nat) :
    i < samples.partitionFrom p first size ↔ samples.holdsAt p i := by
  fun_induction partitionFrom samples p first size with
  | case1 first size hsize hholds =>
    constructor
    . exact fun hi => holdsAt_of_le h (Nat.le_of_lt_succ hi) hholds
    . intro hi
      have := mt (hbehind i) (not_not_intro hi)
      omega
  | case2 first size hsize hholds =>
    refine ⟨hbefore i, fun hi => Nat.lt_of_not_le fun hle => ?_⟩
    exact hholds (holdsAt_of_le h hle hi)
  | case3 first size hsize middle later ih =>
    by_cases hmiddle : samples.holdsAt p middle
    . have hlater : later = middle := if_pos hmiddle
      rw [hlater] at ih ⊢
      apply ih
      . exact fun i hi => holdsAt_of_le h (Nat.le_of_lt hi) hmiddle
      . exact fun i hi => hbehind i (by omega)
    . have hlater : later = first := if_neg hmiddle
      rw [hlater] at ih ⊢
      apply ih hbefore
      exact fun i hi hholds => hmiddle (holdsAt_of_le h (by omega) hholds)

theorem lt_partitionPoint_iff {i : Nat} (hi : i < samples.entries.length) :
    i < samples.partitionPoint p ↔ p samples.entries[i].1 := by
  rw [← samples.holdsAt_eq p hi]
  apply lt_partitionFrom_iff h
  . exact fun i hi => absurd hi (Nat.not_lt_zero i)
  . intro i hi hholds
    have := lt_length_of_holdsAt hholds
    omega

theorem partitionPoint_eq_length_takeWhile :
    samples.partitionPoint p = (samples.entries.takeWhile (p ·.1)).length := by
  have hle := samples.partitionPoint_le p
  have htake := (List.takeWhile_prefix (p ·.1) (l := samples.entries)).length_le
  have hiff {i : Nat} (hi : i < samples.entries.length) :=
    (lt_partitionPoint_iff h hi).trans (SampleTimes.lt_length_takeWhile_iff h hi).symm
  apply Nat.le_antisymm
  . exact Nat.le_of_not_lt fun hlt => Nat.lt_irrefl _ ((hiff (by omega)).1 hlt)
  . exact Nat.le_of_not_lt fun hlt => Nat.lt_irrefl _ ((hiff (by omega)).2 hlt)

end Leading

end TimeSamples

end SceneTree
