import BatchMeans.Series.Mean
import BatchMeans.Throughput.RateModel

/- How far a model's predictions are from observed rounds. -/
namespace BatchMeans.Throughput

/-- The absolute errors of a model added up, and that sum as a percentage of the observed duration. -/
structure ErrorTotal (α : Type) where
  sum : α
  percent : α

/-- The errors of a model beside those of a single rate without overhead. -/
structure Score (α : Type) where
  rounds : Nat
  totalWork : α
  totalDuration : α
  meanRate : α
  model : RateModel α
  modelError : ErrorTotal α
  naiveRate : α
  naiveError : ErrorTotal α

/-- Whether the model is strictly closer to the rounds than the single rate. -/
def Score.improves {α : Type} [Arith α] (s : Score α) : Bool :=
  decide (s.modelError.sum < s.naiveError.sum)

/-- An error sum together with its percentage of a duration. -/
def ErrorTotal.ofSum {α : Type} [Arith α] (sum duration : α) : ErrorTotal α :=
  ⟨sum, sum * Arith.count 100 / duration⟩

namespace Round
variable {α : Type} [Arith α]

/-- There is at least one round, and each is valid. -/
def checkNonempty (rs : List (Round α)) : Checked α Unit := do
  require (rs.isEmpty = false) .noRounds
  checkAll rs

/-- The distances between predicted and observed durations, added up. -/
@[specialize] def absoluteError (predict : α → α) (rs : List (Round α)) : α :=
  Arith.sumBy (fun r => Arith.abs (predict r.work - r.duration)) rs

/-- The score of a model against a given naive rate. -/
@[specialize] def scoreAgainst (rs : List (Round α)) (model : RateModel α) (naiveRate : α) :
    Checked α (Score α) := do
  checkNonempty rs
  model.check
  require (Arith.IsPositive naiveRate) (.naiveRateNotPositive naiveRate)
  let totalWork := Arith.sumBy Round.work rs
  let totalDuration := Arith.sumBy Round.duration rs
  return {
    rounds := rs.length
    totalWork := totalWork
    totalDuration := totalDuration
    meanRate := totalWork / totalDuration
    model := model
    modelError := .ofSum (absoluteError model.duration rs) totalDuration
    naiveRate := naiveRate
    naiveError := .ofSum (absoluteError (fun work => work / naiveRate) rs) totalDuration }

/-- The score of a model against the harmonic mean of the observed rates. -/
@[specialize] def score (rs : List (Round α)) (model : RateModel α) : Checked α (Score α) := do
  checkNonempty rs
  let naiveRate ← Series.mean (rs.map rate) .harmonic
  scoreAgainst rs model naiveRate

end Round
end BatchMeans.Throughput
