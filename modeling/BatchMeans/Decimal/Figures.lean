import BatchMeans.Decimal.Binary64

/- The significant digits of a number, chosen in two ways.

   `shortest`: the fewest digits that read back as the same double, and of those
   the nearest to its value. `rounded`: a fixed number of digits, a tie going to the
   even one. Both work on exact quotients of natural numbers. -/
namespace BatchMeans.Decimal

/-- Significant digits, and the power of ten of the first of them. -/
structure Figures where
  digits : List Char
  exponent : Int

/-- Which of two equally near neighbours is taken. -/
inductive Tie where
  | upward
  | toEven

/-- How the digits of a number are chosen. -/
inductive DigitRule where
  | shortest (tie : Tie)
  | rounded (count : Nat)

/-- The digits of zero. -/
def Figures.zero : DigitRule → Figures
  | .shortest _ => ⟨['0'], 0⟩
  | .rounded count => ⟨List.replicate count '0', 0⟩

/-- A natural number of `count` digits whose last digit counts `10 ^ k`; when rounding has carried it to
    one digit more, that digit is a zero and is dropped. -/
def Figures.ofNat (count d : Nat) (k : Int) : Figures :=
  ⟨(Nat.toDigits 10 d).take count, k + (Quotient.digitCount d : Int) - 1⟩

/-- The numbers that round to one double, as numerators over a common denominator. -/
structure RoundingInterval where
  value : Nat
  lower : Nat
  upper : Nat
  den : Nat
  closed : Bool

/-- Half way to each neighbour; the lower neighbour of a power of two is twice as near.
    The ends belong to the interval when the significand is even. -/
def RoundingInterval.ofBinary (m : Nat) (e : Int) : RoundingInterval :=
  let unit := Binary64.exact 1 (e - 2)
  let below := if m = Binary64.hiddenBit ∧ Binary64.minExponent < e then 1 else 2
  { value := 4 * m * unit.num
    lower := (4 * m - below) * unit.num
    upper := (4 * m + 2) * unit.num
    den := unit.den
    closed := m % 2 == 0 }

namespace RoundingInterval

/-- Whether the point `p / q` lies in the interval. -/
def contains (i : RoundingInterval) (p q : Nat) : Bool :=
  if i.closed then decide (i.lower * q ≤ p * i.den ∧ p * i.den ≤ i.upper * q)
  else decide (i.lower * q < p * i.den ∧ p * i.den < i.upper * q)

/-- The nearest multiple of `10 ^ k` that lies in the interval, as a multiple of `10 ^ k`.
    Only the two multiples around the value can be it. -/
def nearest? (tie : Tie) (i : RoundingInterval) (k : Int) : Option Nat :=
  let grid := Quotient.scaleDown ⟨1, 1⟩ (-k)
  let scaled := Quotient.scaleDown ⟨i.value, i.den⟩ k
  let d := scaled.num / scaled.den
  let below := i.contains (d * grid.num) grid.den
  let above := i.contains ((d + 1) * grid.num) grid.den
  if below && above then
    let rest := 2 * (scaled.num % scaled.den)
    if rest < scaled.den then some d
    else if scaled.den < rest then some (d + 1)
    else match tie with
      | .upward => some (d + 1)
      | .toEven => some (if d % 2 = 0 then d else d + 1)
  else if below then some d
  else if above then some (d + 1)
  else none

/-- Try `count` digits, then one more, as long as `tries` lasts. -/
def search (tie : Tie) (i : RoundingInterval) (leading : Int) : Nat → Nat → Figures
  | 0, count => .ofNat count (i.value / i.den) (leading - (count : Int) + 1)
  | tries + 1, count =>
    let k := leading - (count : Int) + 1
    match i.nearest? tie k with
    | some d => .ofNat count d k
    | none => search tie i leading tries (count + 1)

end RoundingInterval

/-- Seventeen digits always read back, so the search goes no further. -/
def Figures.shortest (tie : Tie) (m : Nat) (e : Int) : Figures :=
  (RoundingInterval.ofBinary m e).search tie (Binary64.exact m e).leadingExponent 17 1

/-- A quotient rounded to the nearest natural number, a tie to the even one. -/
def Quotient.round (v : Quotient) : Nat :=
  let d := v.num / v.den
  let rest := 2 * (v.num % v.den)
  if rest < v.den ∨ (rest = v.den ∧ d % 2 = 0) then d else d + 1

def Figures.rounded (count m : Nat) (e : Int) : Figures :=
  let v := Binary64.exact m e
  let k := v.leadingExponent - (count : Int) + 1
  .ofNat count (v.scaleDown k).round k

/-- The digits of `m * 2 ^ e` by the given rule. -/
def Figures.ofBinary (rule : DigitRule) (m : Nat) (e : Int) : Figures :=
  if m = 0 then .zero rule
  else match rule with
    | .shortest tie => .shortest tie m e
    | .rounded count => .rounded count m e

end BatchMeans.Decimal
