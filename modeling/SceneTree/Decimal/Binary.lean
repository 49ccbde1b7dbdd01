/-!
This module contains the finite numbers of a binary floating point format as exact products of a
coefficient and a power of two, and the reading of such a number from its bits.
-/

namespace SceneTree.Decimal

structure Format where
  exponentBits : Nat
  fractionBits : Nat

namespace Format

def double : Format := ⟨11, 52⟩

def single : Format := ⟨8, 23⟩

def minExponent (format : Format) : Int :=
  2 - Nat.pow 2 (format.exponentBits - 1) - format.fractionBits

def infinity (format : Format) : Nat :=
  (Nat.pow 2 format.exponentBits - 1) * Nat.pow 2 format.fractionBits

def nan (format : Format) : Nat :=
  format.infinity + Nat.pow 2 (format.fractionBits - 1)

def signBit (format : Format) : Nat :=
  Nat.pow 2 (format.exponentBits + format.fractionBits)

end Format

/--
The number `coefficient * 2 ^ exponent`. In the format it comes from, the next number below is at
half the distance of the next number above if `isPower` holds.
-/
structure Binary where
  coefficient : Nat
  exponent : Int
  isPower : Bool
deriving DecidableEq

def Binary.ofBits (format : Format) (bits : Nat) : Binary :=
  let fraction := bits % Nat.pow 2 format.fractionBits
  let field := bits / Nat.pow 2 format.fractionBits
  if field = 0 then ⟨fraction, format.minExponent, false⟩
  else ⟨Nat.pow 2 format.fractionBits + fraction, format.minExponent + (field - 1 : Nat),
    fraction = 0 ∧ 1 < field⟩

end SceneTree.Decimal
