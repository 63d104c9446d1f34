import BatchMeans.Proofs.Throughput.Acceptance
import BatchMeans.Proofs.Traps.Blocks

/- Regressions, fits and scores meet no trap.

   A regression takes one off its number of points, of which there are two by
   then. A fit cuts the rounds into blocks of a size that the search found for their
   rates, so it is at least one, and takes one and two off the number of blocks
   only where there are three. A score takes no guarded step but those of a mean. -/
namespace BatchMeans
open Series Throughput
variable {α : Type}

namespace Guarded

def leastSquares [Arith α] (xs ys : List α) : Guarded (Fault α) (Line α) := do
  plain (require (xs.length = ys.length) (.lengthsDiffer xs.length ys.length))
  plain (require (2 ≤ xs.length) (.tooFewPoints xs.length))
  let xMean ← mean xs .arithmetic
  let yMean ← mean ys .arithmetic
  let variance ← blockVariance xs 1 xMean .arithmetic
  if Arith.IsZero variance then plain (.error (.undefined .equalAbscissas))
  else do
    let cross := Arith.sumBy (fun p : α × α => (p.1 - xMean) * (p.2 - yMean)) (xs.zip ys)
    let count ← difference xs.length 1
    let slope := cross / Arith.count count / variance
    return ⟨yMean - slope * xMean, slope⟩

variable [RootArith α]

/-- The fit to the means of `h` blocks. -/
def fitBlocks (rs : List (Round α)) (q h : Nat) : Guarded (Fault α) (Fit α) := do
  let blocks ← cut q rs
  let points := blocks.map (Round.blockMean q)
  let works := points.map (·.1)
  let line ← leastSquares works (points.map (·.2))
  plain (require (0 < line.slope) (.slopeNotPositive line.slope))
  let residual := line.residualSum (rs.map fun r => (r.work, r.duration))
  let blockResidual := line.residualSum points
  let workMean ← mean works .arithmetic
  let variance ← blockVariance works 1 workMean .arithmetic
  let pairs ← difference h 1
  let workSquares := variance * Arith.count pairs
  let freedom ← difference h 2
  let slopeError := RootArith.sqrt (blockResidual / Arith.count freedom / workSquares)
  let slopeHalfWidth := Arith.count 2 * slopeError
  return {
    overhead := line.intercept
    rate := 1 / line.slope
    blockSize := q
    blockCount := h
    roundsUsed := rs.length
    residual := residual
    blockResidual := blockResidual
    rateWidth := Arith.abs (1 / (line.slope - slopeHalfWidth) - 1 / (line.slope + slopeHalfWidth)) }

def fit? (rs : List (Round α)) (o : FitOptions α) : Guarded (Fault α) (Option (Fit α)) := do
  plain (Round.checkAll rs)
  let kept := keptRounds rs o
  if kept.length < 3 then return none
  match ← blockSize? (kept.map Round.rate) .harmonic o.limit with
  | none => return none
  | some q => do
    let h ← quotient kept.length q
    if h < 3 then return none
    else do
      let fit ← fitBlocks kept q h
      return some fit

def score (rs : List (Round α)) (model : RateModel α) : Guarded (Fault α) (Score α) := do
  plain (Round.checkNonempty rs)
  let naiveRate ← mean (rs.map Round.rate) .harmonic
  plain (Round.scoreAgainst rs model naiveRate)

end Guarded

namespace Computes

theorem leastSquares [Arith α] (xs ys : List α) :
    Computes (Guarded.leastSquares xs ys) (Line.leastSquares xs ys) := by
  refine .check fun _ _ => ?_
  refine .check fun _ hlen => ?_
  have hone : 1 ≤ xs.length := Nat.le_of_succ_le (require_eq_ok_iff.mp hlen)
  refine .bind (mean xs .arithmetic) fun xMean _ => ?_
  refine .bind (mean ys .arithmetic) fun yMean _ => ?_
  refine .bind (blockVariance xs 1 xMean .arithmetic) fun variance _ => ?_
  refine .ite (fun _ => .plain _) fun _ => ?_
  exact .step (Guarded.difference_eq hone) (.ok _)

variable [RootArith α]

theorem fitBlocks (rs : List (Round α)) {q : Nat} (hq : 1 ≤ q) (hdiv : 3 ≤ rs.length / q) :
    Computes (Guarded.fitBlocks rs q (rs.length / q)) (Round.fitBlocks rs q) := by
  refine .step (Guarded.cut_eq rs hq) ?_
  refine .bind (leastSquares _ _) fun line _ => ?_
  refine .check fun _ _ => ?_
  refine .bind (mean _ .arithmetic) fun workMean _ => ?_
  refine .bind (blockVariance _ 1 workMean .arithmetic) fun variance _ => ?_
  refine .step (Guarded.difference_eq (by omega)) ?_
  exact .step (Guarded.difference_eq (by omega)) (.ok _)

theorem fit? (rs : List (Round α)) (o : FitOptions α) :
    Computes (Guarded.fit? rs o) (Round.fit? rs o) := by
  refine .check fun _ _ => ?_
  refine .ite (fun _ => .ok none) fun _ => ?_
  refine .bind (blockSize? _ .harmonic o.limit) fun size hsize => ?_
  cases size with
  | none => exact .ok none
  | some q =>
    have hq := (two_le_div_of_blockSize? hsize).1
    refine .step (Guarded.quotient_eq _ hq) ?_
    refine .ite (fun _ => .ok none) fun hdiv => ?_
    exact .bind (fitBlocks _ hq (Nat.le_of_not_lt hdiv)) fun _ _ => .ok _

theorem score (rs : List (Round α)) (model : RateModel α) :
    Computes (Guarded.score rs model) (Round.score rs model) := by
  refine .check fun _ _ => ?_
  exact .bind (mean _ .harmonic) fun _ _ => .plain _

end Computes
end BatchMeans
