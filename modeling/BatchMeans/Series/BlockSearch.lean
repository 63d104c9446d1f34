import BatchMeans.Series.Autocorrelation

/- The search for a block size.

   The least size is taken whose block means are nearly uncorrelated. A size
   whose block means do not vary at all counts as fully correlated. -/
namespace BatchMeans.Series
variable {α : Type} [Arith α]

/-- The coefficient by which a size is judged. -/
@[specialize] def judgedCoefficient (xs : List α) (q : Nat) (centre : α) (method : MeanMethod) : Checked α α :=
  match blockAutocorrelation xs q centre method with
  | .error (.undefined _) => .ok 1
  | result => result

/-- Whether the judged coefficient of a size lies within the limit, on either side of zero. -/
@[specialize] def sizeQualifies (xs : List α) (centre : α) (method : MeanMethod) (limit : α) (q : Nat) :
    Checked α Bool := do
  let coefficient ← judgedCoefficient xs q centre method
  return decide (Arith.abs coefficient ≤ limit)

/-- The least of the sizes that leave at least two blocks and qualify. -/
@[specialize] def blockSize? (xs : List α) (method : MeanMethod) (limit : α) : Checked α (Option Nat) := do
  require (2 ≤ xs.length) (.tooFewReadings xs.length)
  require (0 ≤ limit) (.negativeLimit limit)
  let centre ← mean xs method
  (List.range' 1 (xs.length / 2)).findM? (sizeQualifies xs centre method limit)

end BatchMeans.Series
