import SceneTree.Decimal.Shortest

/-!
This module contains the ways to write a decimal. A format that prints numbers states its choices in
one `Layout`.
-/

namespace SceneTree.Decimal

structure Layout where
  /-- The powers of ten of the first digit for which no exponent is written; `none` is all. -/
  positional : Option (Int × Int)
  /-- Whether a whole number written without exponent ends in `.0`. -/
  keepsPoint : Bool
  /-- Whether a positive exponent has a sign. -/
  plusSign : Bool
  tie : Tie
  nan : String
  infinity : String
  negativeInfinity : String

namespace Layout

def zeros (n : Nat) : String :=
  String.ofList (List.replicate n '0')

def plain (layout : Layout) (digits : List Char) (exponent : Int) : String :=
  match exponent with
  | .ofNat e => String.ofList digits ++ zeros e ++ (if layout.keepsPoint then ".0" else "")
  | .negSucc e =>
    let whole := digits.length - (e + 1)
    if whole = 0 then "0." ++ zeros (e + 1 - digits.length) ++ String.ofList digits
    else String.ofList (digits.take whole) ++ "." ++ String.ofList (digits.drop whole)

def scientific (layout : Layout) (digits : List Char) (power : Int) : String :=
  let mantissa := match digits with
    | [] => "0"
    | d :: [] => d.toString
    | d :: rest => d.toString ++ "." ++ String.ofList rest
  let sign := if 0 ≤ power ∧ layout.plusSign then "+" else ""
  mantissa ++ "e" ++ sign ++ toString power

def unsigned (layout : Layout) (d : Digits) : String :=
  let digits := (toString d.coefficient).toList
  let power := d.exponent + digits.length - 1
  match layout.positional with
  | none => layout.plain digits d.exponent
  | some (low, high) =>
    if low ≤ power ∧ power ≤ high then layout.plain digits d.exponent
    else layout.scientific digits power

def ofBits (layout : Layout) (format : Format) (bits : Nat) : String :=
  let negative := format.signBit ≤ bits
  let rest := bits % format.signBit
  if format.infinity < rest then layout.nan
  else if rest = format.infinity then
    if negative then layout.negativeInfinity else layout.infinity
  else
    (if negative then "-" else "") ++
      layout.unsigned (shortest layout.tie (Binary.ofBits format rest))

def double (layout : Layout) (x : Float) : String :=
  layout.ofBits .double x.toBits.toNat

end Layout

/--
Numbers in running text: the digits alone, whatever the size.
-/
def textLayout : Layout where
  positional := none
  keepsPoint := false
  plusSign := false
  tie := .up
  nan := "NaN"
  infinity := "inf"
  negativeInfinity := "-inf"

end SceneTree.Decimal
