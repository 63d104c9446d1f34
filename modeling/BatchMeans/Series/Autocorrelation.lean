import BatchMeans.Series.Blocks

/- How strongly neighbouring readings, or neighbouring blocks of readings, are correlated.

   Both coefficients take the centre as an argument, so that the coefficients
   of a sweep over sizes or lags are measured from the same centre. -/
namespace BatchMeans.Series
variable {α : Type} [Arith α]

/-- The sum of the products of the distances from a centre. -/
@[specialize] def crossSum (pairs : List (α × α)) (centre : α) : α :=
  Arith.sumBy (fun p => (p.1 - centre) * (p.2 - centre)) pairs

/-- The coefficient between neighbouring block means. Covariance and variance are both taken
    over one less than the number of blocks. -/
@[specialize] def blockAutocorrelation (xs : List α) (q : Nat) (centre : α) (method : MeanMethod) :
    Checked α α := do
  checkFinite xs
  checkBlockSize xs.length q
  checkMethod xs method
  require (Arith.isFinite centre = true) (.sampleMeanNotFinite centre)
  let h := xs.length / q
  require (2 ≤ h) (.tooFewBlocks .autocorrelation h xs.length q)
  let means := reduceBlocks xs q method
  let covariance := crossSum (means.zip means.tail) centre / Arith.count (h - 1)
  let variance := squareSum means centre / Arith.count (h - 1)
  if Arith.IsZero variance then .error (.undefined (.zeroBlockVariance centre q))
  else return covariance / variance

/-- The coefficient between readings that lie `lag` apart. -/
@[specialize] def lagAutocorrelation (xs : List α) (lag : Nat) (centre : α) : Checked α α := do
  checkFinite xs
  require (lag < xs.length) (.lagTooLong lag xs.length)
  require (Arith.isFinite centre = true) (.meanNotFinite centre)
  let denominator := squareSum xs centre
  if Arith.IsZero denominator then .error (.undefined (.zeroVariance centre))
  else return crossSum (xs.zip (xs.drop lag)) centre / denominator

end BatchMeans.Series
