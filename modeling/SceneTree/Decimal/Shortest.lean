import SceneTree.Decimal.Binary

/-!
This module contains the shortest decimal that reads back as a given binary floating point number:
of all decimals that are nearer to it than to its neighbours, one with the fewest digits, and of
these the nearest.
-/

namespace SceneTree.Decimal

/--
What to take of two decimals that are equally near.
-/
inductive Tie where
  | toEven
  | up
deriving DecidableEq

structure Digits where
  coefficient : Nat
  exponent : Int
deriving DecidableEq

namespace Digits

def trim : Nat → Digits → Digits
  | 0, d => d
  | fuel + 1, d =>
    if d.coefficient ≠ 0 ∧ d.coefficient % 10 = 0 then
      trim fuel ⟨d.coefficient / 10, d.exponent + 1⟩
    else d

end Digits

/--
The interval of the reals that read back as a binary number, as multiples of `1 / unit`: the number
is `value / unit` and the ends are `low / unit` and `high / unit`.
-/
structure Interval where
  low : Nat
  value : Nat
  high : Nat
  unit : Nat
  /-- Whether the ends belong to it: a tie in reading goes to the even coefficient. -/
  closed : Bool

def Interval.ofBinary (number : Binary) : Interval :=
  let m := 4 * number.coefficient
  let low := if number.isPower then m - 1 else m - 2
  let closed := number.coefficient % 2 == 0
  match number.exponent with
  | .ofNat e =>
    ⟨low * Nat.pow 2 e, m * Nat.pow 2 e, (m + 2) * Nat.pow 2 e, 4, closed⟩
  | .negSucc e => ⟨low, m, m + 2, 4 * Nat.pow 2 (e + 1), closed⟩

namespace Interval

def contains (i : Interval) (numerator denominator : Nat) : Bool :=
  if i.closed then i.low * denominator ≤ numerator ∧ numerator ≤ i.high * denominator
  else i.low * denominator < numerator ∧ numerator < i.high * denominator

/--
The number of digits before the point, or minus the number of zeros behind it, looked for upwards
from a lower bound.
-/
def magnitude (i : Interval) (start : Int) : Nat → Int
  | 0 => start
  | fuel + 1 =>
    let reached : Bool := match start with
      | .ofNat k => i.value < i.unit * Nat.pow 10 k
      | .negSucc k => i.value * Nat.pow 10 (k + 1) < i.unit
    if reached then start else magnitude i (start + 1) fuel

def onGrid? (i : Interval) (tie : Tie) (exponent : Int) : Option Digits :=
  -- the value is `value / step` steps of the grid
  let step := match exponent with
    | .ofNat e => i.unit * Nat.pow 10 e
    | .negSucc _ => i.unit
  let scale := match exponent with
    | .ofNat _ => 1
    | .negSucc e => Nat.pow 10 (e + 1)
  let value := i.value * scale
  let below := value / step
  let above := below + 1
  let belowIn := i.contains (below * step) scale
  let aboveIn := i.contains (above * step) scale
  let rest := 2 * (value - below * step)
  let preferAbove := step < rest || (rest == step && (tie == .up || below % 2 == 1))
  if belowIn && (!aboveIn || !preferAbove) then some ⟨below, exponent⟩
  else if aboveIn then some ⟨above, exponent⟩
  else none

def search (i : Interval) (tie : Tie) (exponent : Int) : Nat → Digits
  | 0 => ⟨0, 0⟩
  | fuel + 1 =>
    match i.onGrid? tie exponent with
    | some d => d
    | none => search i tie (exponent - 1) fuel

end Interval

/--
The shortest decimal that reads back as the number, without trailing zeros. Seventeen digits always
suffice for the formats used here.
-/
def shortest (tie : Tie) (number : Binary) : Digits :=
  if number.coefficient = 0 then ⟨0, 0⟩
  else
    let i := Interval.ofBinary number
    let size : Int := (Nat.log2 number.coefficient : Int) + number.exponent
    -- the logarithm of two is 0.30103, rounded up by less than a digit in all exponents used here
    let magnitude := i.magnitude (size * 30103 / 100000 - 1) 8
    (i.search tie (magnitude - 1) 20).trim 400

end SceneTree.Decimal
