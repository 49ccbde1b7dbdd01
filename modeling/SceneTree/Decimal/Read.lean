import SceneTree.Decimal.Binary

/-!
This module contains the reading of decimals: the grammar of numerals, and the number of a floating
point format that is nearest to a numeral.
-/

namespace SceneTree.Decimal

/--
The numeral `coefficient * 10 ^ exponent` with a sign. A negative zero is told apart.
-/
structure Numeral where
  isNegative : Bool
  coefficient : Nat
  exponent : Int
deriving DecidableEq, Inhabited

/--
The bits of the number that is nearest to `numerator / denominator`. Halves go to the even number,
and what is too great to the infinity.
-/
def nearestRatio (format : Format) (numerator denominator : Nat) : Nat :=
  if numerator = 0 then 0
  else
    let quotient (exponent : Int) : Nat × Nat := match exponent with
      | .ofNat e => (numerator, denominator * Nat.pow 2 e)
      | .negSucc e => (numerator * Nat.pow 2 (e + 1), denominator)
    let limit := Nat.pow 2 (format.fractionBits + 1)
    let guess : Int := (Nat.log2 numerator : Int) - Nat.log2 denominator - format.fractionBits - 1
    let start := max guess format.minExponent
    -- the guess is at most two steps below the exponent that leaves no bit too many
    let fits (exponent : Int) : Bool :=
      let (n, d) := quotient exponent
      n / d < limit
    let exponent := if fits start then start
      else if fits (start + 1) then start + 1
      else start + 2
    let (n, d) := quotient exponent
    let below := n / d
    let rest := 2 * (n % d)
    let coefficient := if d < rest ∨ (rest = d ∧ below % 2 = 1) then below + 1 else below
    -- a carry out of the coefficient counts the exponent up
    let bits := (exponent - format.minExponent).toNat * Nat.pow 2 format.fractionBits + coefficient
    min bits format.infinity

def nearest (format : Format) (numeral : Numeral) : Nat :=
  let digits : Int := (toString numeral.coefficient).length
  let size := digits + numeral.exponent
  let bits :=
    if numeral.coefficient = 0 then 0
    -- beyond these bounds every format used here is at its end
    else if 400 < size then format.infinity
    else if size < -400 then 0
    else match numeral.exponent with
      | .ofNat e => nearestRatio format (numeral.coefficient * Nat.pow 10 e) 1
      | .negSucc e => nearestRatio format numeral.coefficient (Nat.pow 10 (e + 1))
  if numeral.isNegative then format.signBit + bits else bits

def nearestDouble (numeral : Numeral) : Float :=
  Float.ofBits (UInt64.ofNat (nearest .double numeral))

def foldDigits (n : Nat) (digits : List Char) : Nat :=
  digits.foldl (fun n c => n * 10 + (c.toNat - '0'.toNat)) n

def takeDigits (cs : List Char) : List Char × List Char :=
  (cs.takeWhile Char.isDigit, cs.dropWhile Char.isDigit)

def takeSign : List Char → Bool × List Char
  | '-' :: rest => (true, rest)
  | '+' :: rest => (false, rest)
  | cs => (false, cs)

/--
An exponent: nothing, or an `e` with a sign or none and at least one digit.
-/
def exponent? : List Char → Option Int
  | [] => some 0
  | c :: rest =>
    if c = 'e' ∨ c = 'E' then
      let (isNegative, rest) := takeSign rest
      if rest ≠ [] ∧ rest.all Char.isDigit then
        let n : Int := foldDigits 0 rest
        some (if isNegative then -n else n)
      else none
    else none

/--
An unsigned numeral with a point or none and an exponent or none. Digits may be missing on one side
of the point.
-/
def unsignedNumeral? (isNegative : Bool) (cs : List Char) : Option Numeral :=
  let (whole, rest) := takeDigits cs
  let (fraction, rest) := match rest with
    | '.' :: rest => takeDigits rest
    | rest => ([], rest)
  if whole = [] ∧ fraction = [] then none
  else (exponent? rest).map fun e =>
    ⟨isNegative, foldDigits (foldDigits 0 whole) fraction, e - fraction.length⟩

/--
A number as people write it: a numeral, or a name of the infinity or of the missing number, with a
sign or none. The answer is its bits.
-/
def bits? (format : Format) (text : String) : Option Nat :=
  let (isNegative, rest) := takeSign text.toList
  let word := String.ofList (rest.map Char.toLower)
  let signed (bits : Nat) := if isNegative then format.signBit + bits else bits
  if word = "inf" ∨ word = "infinity" then some (signed format.infinity)
  else if word = "nan" then some (signed format.nan)
  else (unsignedNumeral? isNegative rest).map (nearest format)

end SceneTree.Decimal
