import BatchMeans.Series.BlockSearch
import BatchMeans.Series.Interval

/- How many readings an interval of a wanted width needs. -/
namespace BatchMeans

/-- A number of blocks, and the number of readings in them. -/
structure SampleSize where
  blockSize : Nat
  blockCount : Nat
  readingCount : Nat
deriving DecidableEq

namespace SampleSize

/-- Counts stay below `2 ^ 64`. -/
def countLimit : Nat := 18446744073709551616

/-- Blocks of `q` readings, `bound` of them rounded up; refused when a count reaches the limit. -/
def ofBound {α : Type} [RootArith α] (width : α) (q : Nat) (bound : α) : Checked α SampleSize := do
  match RootArith.ceilNat bound with
  | none => refuse (.tooManyBlocks width)
  | some count =>
    require (count < countLimit) (.tooManyBlocks width)
    require (count * q < countLimit) (.tooManyReadings width)
    return ⟨q, count, count * q⟩

end SampleSize

namespace Series
variable {α : Type} [RootArith α]

/-- How many blocks of that variance bring the half width down to `e`, before rounding up. -/
def blockBound (t variance e : α) : α := variance * Arith.square (t / e)

/-- The size of a sample whose interval has the wanted width, when some block size qualifies. -/
@[specialize] def requiredSize? (law : TailLaw α) (xs : List α) (width : α) (method : MeanMethod)
    (level limit : α) : Checked α (Option SampleSize) := do
  StudentT.checkLevel level
  require (Arith.IsPositive width) (.widthNotPositive width)
  match ← blockSize? xs method limit with
  | none => return none
  | some q =>
    let t ← StudentT.criticalValue law (xs.length / q - 1) level
    let centre ← mean xs method
    let variance ← blockVariance xs q centre method
    return some (← SampleSize.ofBound width q (blockBound t variance (width / Arith.count 2)))

end Series
end BatchMeans
