import BatchMeans.Arith
import BatchMeans.Fault

/- Two-sided critical values of Student's t.

   The critical value at a level leaves the tail probability `(1 - level) / 2` above it.
   From a starting quantile it is polished by a few Newton steps on the
   tail itself, so that no probability near one is subtracted. The
   distribution is a parameter. -/
namespace BatchMeans

/-- A family of distributions, by degrees of freedom. -/
structure TailLaw (α : Type) where
  /-- The probability above a value. -/
  upperTail : Nat → α → α
  density : Nat → α → α
  /-- An approximate value with the given probability below it. -/
  quantile : Nat → α → α

namespace StudentT
variable {α : Type} [Arith α]

/-- A step counts while it exceeds the unit `2 ^ -52` of the value. -/
def isNegligible (step t : α) : Bool :=
  decide (Arith.abs step ≤ Arith.ratio 1 4503599627370496 * Arith.abs t)

/-- At most `steps` Newton steps toward the value with tail probability `alpha`. A value that is not
    positive and finite, or that has no density, is left as it is. -/
def polish (law : TailLaw α) (df : Nat) (alpha : α) : Nat → α → α
  | 0, t => t
  | steps + 1, t =>
    let density := law.density df t
    if 0 < density ∧ Arith.IsPositive t then
      let step := (alpha - law.upperTail df t) / density
      let next := t - step
      if isNegligible step next then next else polish law df alpha steps next
    else t

/-- The probability above the critical value. -/
def tailOfLevel (level : α) : α := (1 - level) / Arith.count 2

/-- A confidence level lies strictly between zero and one. -/
def checkLevel (level : α) : Checked α Unit :=
  require (0 < level ∧ level < 1) (.levelOutOfRange level)

/-- The value that a variable with `df` degrees of freedom stays within, on both sides, at the given level. -/
def criticalValue (law : TailLaw α) (df : Nat) (level : α) : Checked α α := do
  checkLevel level
  require (1 ≤ df) .noFreedom
  let alpha := tailOfLevel level
  return polish law df alpha 4 (law.quantile df (1 - alpha))

end StudentT
end BatchMeans
