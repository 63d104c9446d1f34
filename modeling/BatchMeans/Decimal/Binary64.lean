/- Doubles taken apart: sign, significand and power of two, read off the 64 bits.

   The text of a number is chosen in exact natural-number arithmetic on
   these parts, so that a law about it does not depend on floating-point
   operations. -/
namespace BatchMeans.Decimal

/-- A double as its sign and the exact value `significand * 2 ^ exponent`. -/
inductive Binary64 where
  | undefined
  | infinite (negative : Bool)
  | finite (negative : Bool) (significand : Nat) (exponent : Int)
deriving DecidableEq

namespace Binary64

/-- The least exponent, that of the numbers next to zero. -/
def minExponent : Int := -1074

/-- The significand with which each binade begins. -/
def hiddenBit : Nat := Nat.pow 2 52

/-- Sign bit, eleven exponent bits, fifty-two significand bits. -/
def ofBits (bits : Nat) : Binary64 :=
  let negative := bits / Nat.pow 2 63 % 2 == 1
  let exponent := bits / Nat.pow 2 52 % Nat.pow 2 11
  let fraction := bits % Nat.pow 2 52
  if exponent = 2047 then
    if fraction = 0 then .infinite negative else .undefined
  else if exponent = 0 then .finite negative fraction minExponent
  else .finite negative (hiddenBit + fraction) (minExponent + ((exponent : Int) - 1))

def ofFloat (x : Float) : Binary64 := ofBits x.toBits.toNat

/-- The least natural number not below a finite value. -/
def ceilNat : Binary64 → Option Nat
  | undefined => none
  | infinite _ => none
  | finite true _ _ => some 0
  | finite false m e =>
    if 0 ≤ e then some (m * Nat.pow 2 e.toNat)
    else
      let unit := Nat.pow 2 (-e).toNat
      some ((m + (unit - 1)) / unit)

end Binary64

/-- A positive quotient of two natural numbers; exact values are handled in this form. -/
structure Quotient where
  num : Nat
  den : Nat

namespace Quotient

/-- The quotient divided by a power of ten. -/
def scaleDown (v : Quotient) (k : Int) : Quotient :=
  if 0 ≤ k then ⟨v.num, v.den * Nat.pow 10 k.toNat⟩
  else ⟨v.num * Nat.pow 10 (-k).toNat, v.den⟩

/-- How many digits a natural number has. -/
def digitCount (n : Nat) : Nat := (Nat.toDigits 10 n).length

/-- The power of ten of the first digit: the greatest `k` with `10 ^ k` not above the value. -/
def leadingExponent (v : Quotient) : Int :=
  if v.den ≤ v.num then (digitCount (v.num / v.den) : Int) - 1
  else -(digitCount ((v.den + (v.num - 1)) / v.num - 1) : Int)

end Quotient

namespace Binary64

/-- The value `m * 2 ^ e` as a quotient. -/
def exact (m : Nat) (e : Int) : Quotient :=
  if 0 ≤ e then ⟨m * Nat.pow 2 e.toNat, 1⟩ else ⟨m, Nat.pow 2 (-e).toNat⟩

end Binary64
end BatchMeans.Decimal
