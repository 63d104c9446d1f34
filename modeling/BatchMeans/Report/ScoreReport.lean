import BatchMeans.Arith.Double
import BatchMeans.Report.Json
import BatchMeans.Report.Precision
import BatchMeans.Throughput.Score

/- The report of a model's score, as text and as JSON. -/
namespace BatchMeans.Report
open Throughput

/-- An error total in words. -/
def errorTotalText (e : ErrorTotal Float) : String := plain e.sum ++ " ns, " ++ plain e.percent ++ "%"

/-- The text report of a score; rates are shown per second. -/
def scoreText (s : Score Float) : String :=
  "rounds: " ++ toString s.rounds ++ "\n" ++
  "naive_v: " ++ plain (s.naiveRate * RateModel.second) ++ " work/s\n" ++
  "alpha: " ++ plain s.model.overhead ++ " ns\n" ++
  "v: " ++ plain s.model.ratePerSecond ++ " work/s\n" ++
  "mean calculated from round data: " ++ plain (s.meanRate * RateModel.second) ++ " work/s\n" ++
  "naive model error: " ++ errorTotalText s.naiveError ++ "\n" ++
  "fitted model error: " ++ errorTotalText s.modelError ++ "\n"

def errorTotalJson (e : ErrorTotal Float) : Json :=
  .object [("sum_absolute_error", .number (json e.sum)), ("percent_of_duration", .number (json e.percent))]

def modelJson (m : RateModel Float) : Json :=
  .object [("alpha", .number (json m.overhead)), ("v", .number (json m.rate))]

/-- The JSON report of a score; rates are per nanosecond. -/
def scoreJson (s : Score Float) : Json :=
  .object [("rounds", .ofNat s.rounds), ("total_work_amount", .number (json s.totalWork)),
    ("total_duration", .number (json s.totalDuration)), ("mean_observed_rate", .number (json s.meanRate)),
    ("model", modelJson s.model), ("model_error", errorTotalJson s.modelError),
    ("naive_v", .number (json s.naiveRate)), ("naive_error", errorTotalJson s.naiveError)]

end BatchMeans.Report
