import SceneTree.Decimal.Read

/-!
This module contains the meaning of plain scalars in YAML: which of them stand for nothing, for truth
values and for numbers. All others are texts.
-/

namespace SceneTree.Yaml

inductive Plain where
  | null
  | bool (b : Bool)
  | int (i : Int)
  | double (x : Float)
  | text
deriving Inhabited

namespace Plain

def isNull (s : String) : Bool :=
  s ∈ ["null", "Null", "NULL", "~"]

def bool? (s : String) : Option Bool :=
  if s ∈ ["true", "True", "TRUE"] then some true
  else if s ∈ ["false", "False", "FALSE"] then some false
  else none

/--
Digits of a number with a needless zero in front, which are a text.
-/
def isPadded (s : String) : Bool :=
  match (Decimal.takeSign s.toList).2 with
  | '0' :: c :: rest => (c :: rest).all Char.isDigit
  | _ => false

def digit (c : Char) : Nat :=
  if c.isDigit then c.toNat - '0'.toNat
  else if 'a' ≤ c ∧ c ≤ 'z' then c.toNat - 'a'.toNat + 10
  else if 'A' ≤ c ∧ c ≤ 'Z' then c.toNat - 'A'.toNat + 10
  else 36

def natural? (base : Nat) (cs : List Char) : Option Nat :=
  if cs ≠ [] ∧ cs.all (digit · < base) then some (cs.foldl (fun n c => n * base + digit c) 0)
  else none

/--
An integer without sign, in decimal digits or with a sign of another base in front.
-/
def unsigned? (cs : List Char) : Option Nat :=
  match cs with
  | '0' :: 'x' :: rest => natural? 16 rest
  | '0' :: 'o' :: rest => natural? 8 rest
  | '0' :: 'b' :: rest => natural? 2 rest
  | cs => natural? 10 cs

/--
An integer. Integers have at most 128 bits.
-/
def int? (s : String) : Option Int :=
  if isPadded s then none
  else match s.toList with
    | '-' :: rest => (unsigned? rest).bind fun n =>
      if n ≤ 0x80000000000000000000000000000000 then some (-n) else none
    | '+' :: rest => small? rest
    | cs => small? cs
where
  small? (cs : List Char) : Option Int :=
    (unsigned? cs).bind fun n => if n < 0x100000000000000000000000000000000 then some n else none

/--
A floating point number. What is too great for one is a text, and so are the words for infinity
without a point.
-/
def double? (s : String) : Option Float :=
  let infinity : Option Float := some (Float.ofBits (UInt64.ofNat Decimal.Format.double.infinity))
  if s ∈ [".inf", ".Inf", ".INF", "+.inf", "+.Inf", "+.INF"] then infinity
  else if s ∈ ["-.inf", "-.Inf", "-.INF"] then infinity.map fun x => -x
  else if s ∈ [".nan", ".NaN", ".NAN"] then
    some (Float.ofBits (UInt64.ofNat Decimal.Format.double.nan))
  else
    match Decimal.bits? .double s with
    | some bits =>
      if bits % Decimal.Format.double.signBit < Decimal.Format.double.infinity then
        some (Float.ofBits (UInt64.ofNat bits))
      else none
    | none => none

def ofText (s : String) : Plain :=
  if s = "" ∨ isNull s then null
  else match bool? s with
    | some b => bool b
    | none =>
      match int? s with
      | some i => int i
      | none =>
        if isPadded s then text
        else match double? s with
          | some x => double x
          | none => text

end Plain

end SceneTree.Yaml
