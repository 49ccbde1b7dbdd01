/-!
This module contains shutter times: 32 bit floating point numbers, given by their bits, with the two
orders that sampling needs. The comparisons `before`, `atOrBefore` and `sameAs` are those of numbers:
the zeros of both signs are one time and a NaN compares with nothing. `rank` orders all bit patterns:
the negative zero comes before the positive one and a NaN at the end that its sign names.
-/

namespace SceneTree

/--
A shutter offset relative to the current frame.
-/
structure Time where
  bits : UInt32
deriving DecidableEq, Inhabited

namespace Time

def zero : Time := ⟨0⟩

def magnitude (t : Time) : Nat :=
  t.bits.toNat % 0x80000000

def isNegative (t : Time) : Bool :=
  0x80000000 ≤ t.bits.toNat

def isNaN (t : Time) : Bool :=
  0x7f800000 < t.magnitude

def position (t : Time) : Int :=
  if t.isNegative then -(t.magnitude : Int) else t.magnitude

/--
The place among all bit patterns. No two patterns share one.
-/
def rank (t : Time) : Int :=
  if t.isNegative then -(t.magnitude : Int) - 1 else t.magnitude

-- The sign and the magnitude together are all bits.
theorem eq_of_magnitude_eq {a b : Time} (hsign : a.isNegative = b.isNegative)
    (hmagnitude : a.magnitude = b.magnitude) : a = b := by
  unfold isNegative at hsign
  unfold magnitude at hmagnitude
  simp only [decide_eq_decide] at hsign
  have ha := a.bits.toNat_lt
  have hb := b.bits.toNat_lt
  exact congrArg mk (UInt32.toNat_inj.1 (by omega))

def sameAs (a b : Time) : Bool :=
  !a.isNaN && !b.isNaN && a.position == b.position

def before (a b : Time) : Bool :=
  !a.isNaN && !b.isNaN && decide (a.position < b.position)

def atOrBefore (a b : Time) : Bool :=
  !a.isNaN && !b.isNaN && decide (a.position ≤ b.position)

def rankLE (a b : Time) : Bool :=
  decide (a.rank ≤ b.rank)

end Time

end SceneTree
