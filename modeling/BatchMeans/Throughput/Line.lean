import BatchMeans.Series.Blocks

/- Straight lines through points, by ordinary least squares. -/
namespace BatchMeans.Throughput

structure Line (α : Type) where
  intercept : α
  slope : α

namespace Line
variable {α : Type} [Arith α]

def valueAt (l : Line α) (x : α) : α := l.intercept + l.slope * x

/-- The sum of the squared distances of points from the line. -/
@[specialize] def residualSum (l : Line α) (points : List (α × α)) : α :=
  Arith.sumBy (fun p => Arith.square (l.valueAt p.1 - p.2)) points

/-- The line whose slope is the covariance over the variance of the abscissas. -/
@[specialize] def leastSquares (xs ys : List α) : Checked α (Line α) := do
  require (xs.length = ys.length) (.lengthsDiffer xs.length ys.length)
  require (2 ≤ xs.length) (.tooFewPoints xs.length)
  let xMean ← Series.mean xs .arithmetic
  let yMean ← Series.mean ys .arithmetic
  let variance ← Series.blockVariance xs 1 xMean .arithmetic
  if Arith.IsZero variance then .error (.undefined .equalAbscissas)
  else
    let cross := Arith.sumBy (fun p : α × α => (p.1 - xMean) * (p.2 - yMean)) (xs.zip ys)
    let slope := cross / Arith.count (xs.length - 1) / variance
    return ⟨yMean - slope * xMean, slope⟩

end Line
end BatchMeans.Throughput
