import BatchMeans.Series.BlockSearch
import BatchMeans.Throughput.Line
import BatchMeans.Throughput.RateModel

/- Fitting the rate model to rounds.

   Rounds are grouped into blocks before duration is regressed on work, so that correlated
   rounds do not make the fit look better than it is. The block size comes
   from the autocorrelation of the rates. -/
namespace BatchMeans.Throughput

structure FitOptions (α : Type) where
  /-- Rounds that are not longer than this are left out. -/
  threshold : α
  /-- The autocorrelation limit for the rates. -/
  limit : α

/-- No threshold, and a limit of a tenth. -/
def FitOptions.standard {α : Type} [Arith α] : FitOptions α := ⟨0, Arith.ratio 1 10⟩

structure Fit (α : Type) where
  overhead : α
  rate : α
  blockSize : Nat
  blockCount : Nat
  roundsUsed : Nat
  /-- The squared residuals of the rounds. -/
  residual : α
  /-- The squared residuals of the block means that the line was fitted to. -/
  blockResidual : α
  /-- The width of the interval of the rate, from that of its reciprocal. -/
  rateWidth : α

/-- The fitted model; a fit with negative overhead gives none. -/
def Fit.model {α : Type} [Arith α] (f : Fit α) : Checked α (RateModel α) :=
  RateModel.ofParts f.overhead f.rate

namespace Round
variable {α : Type} [RootArith α]

/-- The mean work and the mean duration of a block of rounds. -/
@[specialize] def blockMean (q : Nat) (block : List (Round α)) : α × α :=
  (Arith.sumBy Round.work block / Arith.count q, Arith.sumBy Round.duration block / Arith.count q)

/-- The fit of a line to the block means of the rounds. -/
@[specialize] def fitBlocks (rs : List (Round α)) (q : Nat) : Checked α (Fit α) := do
  let h := rs.length / q
  let points := (Series.blocks q rs).map (blockMean q)
  let works := points.map (·.1)
  let line ← Line.leastSquares works (points.map (·.2))
  require (0 < line.slope) (.slopeNotPositive line.slope)
  let residual := line.residualSum (rs.map fun r => (r.work, r.duration))
  let blockResidual := line.residualSum points
  let workMean ← Series.mean works .arithmetic
  let workSquares := (← Series.blockVariance works 1 workMean .arithmetic) * Arith.count (h - 1)
  let slopeError := RootArith.sqrt (blockResidual / Arith.count (h - 2) / workSquares)
  let slopeHalfWidth := Arith.count 2 * slopeError
  return {
    overhead := line.intercept
    rate := 1 / line.slope
    blockSize := q
    blockCount := h
    roundsUsed := rs.length
    residual := residual
    blockResidual := blockResidual
    rateWidth := Arith.abs (1 / (line.slope - slopeHalfWidth) - 1 / (line.slope + slopeHalfWidth)) }

/-- The fit of the model to rounds. There is none when fewer than three rounds are long enough, when no block size
    qualifies, or when it leaves fewer than three blocks. -/
@[specialize] def fit? (rs : List (Round α)) (options : FitOptions α) : Checked α (Option (Fit α)) := do
  checkAll rs
  let kept := rs.filter fun r => decide (options.threshold < r.duration)
  if kept.length < 3 then return none
  match ← Series.blockSize? (kept.map rate) .harmonic options.limit with
  | none => return none
  | some q =>
    if kept.length / q < 3 then return none
    else return some (← fitBlocks kept q)

end Round
end BatchMeans.Throughput
