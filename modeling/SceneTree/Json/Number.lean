import SceneTree.Decimal.Read

/-!
This module contains the numbers of JSON texts. A whole number of a machine word is kept as it is.
Any other number is read as far as its digits fit a word, and then scaled by powers of ten, which may
differ from the nearest floating point number in its last bit.
-/

namespace SceneTree.Json

inductive Number where
  | int (i : Int)
  | real (x : Float)

namespace Number

def wordLimit : Nat := UInt64.size

/--
The number of the leading digits that fit a word, and the digits that are left.
-/
def fitting (n : Nat) : List Char → Nat × List Char
  | [] => (n, [])
  | c :: rest =>
    let next := n * 10 + (c.toNat - '0'.toNat)
    if next < wordLimit then fitting next rest else (n, c :: rest)

def powerOfTen (n : Nat) : Float :=
  Decimal.nearestDouble ⟨false, 1, n⟩

def greatestPower : Nat := 308

/--
Divide by powers of ten, the greatest first, at most `fuel` times.
-/
def scaleDown (x : Float) (power : Nat) : Nat → Float
  | 0 => x
  | fuel + 1 =>
    if power ≤ greatestPower then x / powerOfTen power
    else if x == 0 then x
    else scaleDown (x / powerOfTen greatestPower) (power - greatestPower) fuel

def scaled? (digits : Nat) (power : Int) : Option Float :=
  let x := (UInt64.ofNat digits).toFloat
  match power with
  | .ofNat p =>
    if p ≤ greatestPower then
      let y := x * powerOfTen p
      if y.isInf then none else some y
    else if x == 0 then some x else none
  -- dividing thrice by the greatest power leaves nothing of a word
  | .negSucc p => some (scaleDown x (p + 1) 4)

def real? (isNegative : Bool) (whole fraction : List Char) (exponent : Int) : Option Float :=
  let (digits, left) := fitting 0 whole
  let (digits, unread) := fitting digits fraction
  let power := exponent + left.length - (fraction.length - unread.length : Nat)
  (scaled? digits power).map fun x => if isNegative then -x else x

/--
The greatest exponent that is read. A greater one stands for nothing or is out of range.
-/
def exponentLimit : Nat := 0x7fffffff

def readExponent? : List Char → Option (Option Int × List Char)
  | c :: rest =>
    if c = 'e' ∨ c = 'E' then
      let (isNegative, rest) := Decimal.takeSign rest
      match Decimal.takeDigits rest with
      | ([], _) => none
      | (digits, rest) =>
        let e : Int := min (Decimal.foldDigits 0 digits) exponentLimit
        some (some (if isNegative then -e else e), rest)
    else some (none, c :: rest)
  | [] => some (none, [])

def readFraction? : List Char → Option (Option (List Char) × List Char)
  | '.' :: rest =>
    match Decimal.takeDigits rest with
    | ([], _) => none
    | (digits, rest) => some (some digits, rest)
  | cs => some (none, cs)

/--
The whole number, if it fits a machine word and is not a negative zero.
-/
def word? (isNegative : Bool) (n : Nat) : Option Int :=
  if isNegative then
    if 0 < n ∧ n ≤ 0x8000000000000000 then some (-n) else none
  else if n < wordLimit then some n else none

/--
The number at the start of a text, and the text behind it. A leading zero stands alone, and there is
a digit on each side of a point.
-/
def read? (cs : List Char) : Option (Number × List Char) := do
  let (isNegative, cs) := match cs with
    | '-' :: rest => (true, rest)
    | cs => (false, cs)
  let (whole, cs) := Decimal.takeDigits cs
  match whole with
  | [] => failure
  | '0' :: _ :: _ => failure
  | _ => pure ()
  let (fraction, cs) ← readFraction? cs
  let (exponent, rest) ← readExponent? cs
  match fraction, exponent, word? isNegative (Decimal.foldDigits 0 whole) with
  | none, none, some i => return (int i, rest)
  | _, _, _ =>
    let x ← real? isNegative whole (fraction.getD []) (exponent.getD 0)
    return (real x, rest)

def toDouble : Number → Float
  | int (.ofNat n) => (UInt64.ofNat n).toFloat
  | int (.negSucc n) => (Int64.ofInt (.negSucc n)).toFloat
  | real x => x

end Number

end SceneTree.Json
