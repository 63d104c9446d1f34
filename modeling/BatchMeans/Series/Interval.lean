import BatchMeans.Series.Blocks
import BatchMeans.StudentT.CriticalValue

/- Confidence intervals for the mean of a correlated series.

   The width comes from the means of blocks, which are nearly independent, and
   from Student's t with one degree of freedom less than there are blocks. -/
namespace BatchMeans

/-- A symmetric interval around a point, at a confidence level. -/
structure Interval (α : Type) where
  point : α
  halfWidth : α
  level : α

namespace Interval
variable {α : Type} [Arith α]

def lower (i : Interval α) : α := i.point - i.halfWidth
def upper (i : Interval α) : α := i.point + i.halfWidth

/-- The distance between the ends. -/
def width (i : Interval α) : α := i.halfWidth * Arith.count 2

/-- Both ends belong to the interval. -/
def contains (i : Interval α) (x : α) : Bool := decide (i.lower ≤ x ∧ x ≤ i.upper)

end Interval

/-- Which mean an interval is centred on; its width is the same for both. -/
inductive Anchor where
  | blockMeans
  | sample
deriving DecidableEq

namespace Series
variable {α : Type} [RootArith α]

/-- The half width of an interval from block means that vary by `variance`. -/
def halfWidth (t variance : α) (blocks : Nat) : α := t * RootArith.sqrt (variance / Arith.count blocks)

/-- The interval from blocks of `q` readings. The block means vary around their own mean, whatever
    the anchor. -/
@[specialize] def confidenceInterval (law : TailLaw α) (xs : List α) (q : Nat) (level : α)
    (method : MeanMethod) (anchor : Anchor) : Checked α (Interval α) := do
  StudentT.checkLevel level
  checkFinite xs
  checkBlockSize xs.length q
  checkMethod xs method
  let h := xs.length / q
  require (2 ≤ h) (.tooFewBlocks .interval h xs.length q)
  let means := reduceBlocks xs q method
  let centre := MeanMethod.arithmetic.reduce means
  let t ← StudentT.criticalValue law (h - 1) level
  let point := match anchor with
    | .blockMeans => centre
    | .sample => method.reduce xs
  return ⟨point, halfWidth t (spread means centre) h, level⟩

end Series
end BatchMeans
