import SceneTree.Sampled

/-!
This module contains the reading of sampled sources at times that are one number: no source that is
built from constants, held samples and combinations tells the zeros of both signs apart.
-/

namespace SceneTree

namespace Time

theorem atOrBefore_congr {a b : Time} (h : a.sameAs b) (t : Time) :
    t.atOrBefore a = t.atOrBefore b := by
  unfold sameAs at h
  unfold atOrBefore
  simp only [Bool.and_eq_true, Bool.not_eq_true', beq_iff_eq] at h
  obtain ⟨⟨ha, hb⟩, hposition⟩ := h
  rw [ha, hb, hposition]

theorem sameAs_congr {a b : Time} (h : a.sameAs b) (t : Time) : a.sameAs t = b.sameAs t := by
  unfold sameAs at h ⊢
  simp only [Bool.and_eq_true, Bool.not_eq_true', beq_iff_eq] at h
  obtain ⟨⟨ha, hb⟩, hposition⟩ := h
  rw [ha, hb, hposition]

/--
The zero with a sign. It is the same number as the current frame.
-/
def negativeZero : Time := ⟨0x80000000⟩

theorem sameAs_zero_iff (t : Time) : t.sameAs zero ↔ t = zero ∨ t = negativeZero := by
  constructor
  . intro h
    have hposition : t.position = 0 := by
      unfold sameAs at h
      simp only [Bool.and_eq_true, beq_iff_eq] at h
      exact h.2
    have hmagnitude : t.magnitude = 0 := by
      unfold position at hposition
      split at hposition <;> omega
    cases hsign : t.isNegative with
    | false => exact .inl (eq_of_magnitude_eq hsign hmagnitude)
    | true => exact .inr (eq_of_magnitude_eq hsign hmagnitude)
  . rintro (heq | heq)
    all_goals
      subst heq
      rfl

end Time

namespace Sampled

inductive Built : Sampled → Prop where
  | constant (value : Value) : Built (constant value)
  | held (samples : TimeSamples) : Built (held samples)
  | combined (combine : Value → Value → Value) {outer inner : Sampled} (outerBuilt : Built outer)
      (innerBuilt : Built inner) : Built (combined combine outer inner)

theorem Built.valueAt_congr {s : Sampled} (h : s.Built) {a b : Time} (hsame : a.sameAs b) :
    s.valueAt a = s.valueAt b := by
  induction h with
  | constant value => rfl
  | held samples =>
    have hindex : samples.index a = samples.index b := by
      unfold TimeSamples.index
      rw [funext (Time.atOrBefore_congr hsame)]
    dsimp only [Sampled.held, TimeSamples.valueAt]
    simp only [hindex]
  | combined combine _ _ houter hinner =>
    dsimp only [Sampled.combined]
    rw [Time.sameAs_congr hsame, houter, hinner]

end Sampled

end SceneTree
