import BatchMeans.Table.NamedColumns
import BatchMeans.Throughput.RateModel

/- The summary of a throughput analysis: the first row of a table. -/
namespace BatchMeans.Table
open Throughput

/-- The harmonic mean of the observed rates and the parameters of the fitted model, per second. -/
structure Summary where
  harmonicMean : Float
  overhead : Float
  rate : Float

namespace Summary

/-- The fitted model in nanoseconds. -/
def model (s : Summary) : Loaded (RateModel Float) :=
  Loaded.within .summaryModel (Checked.loaded (RateModel.ofSeconds s.overhead s.rate))

/-- The naive rate per nanosecond. -/
def naiveRate (s : Summary) : Float := s.harmonicMean / RateModel.second

/-- The three numbers of a row. -/
def ofRow (names : Option (List String)) (row : Except DataFault (List String)) : Except DataFault Summary := do
  let fields ← row
  match number? names 0 "wps_harmonic_mean" fields, number? names 1 "wps_alpha" fields,
      number? names 2 "wps_v" fields with
  | some harmonicMean, some overhead, some rate => .ok ⟨harmonicMean, overhead, rate⟩
  | _, _, _ => .error .undecodable

/-- The summary in the first row of a table; later rows are not looked at. -/
def ofTable (t : Named) : Loaded Summary :=
  match t.rows with
  | [] => .error .noSummaryRow
  | row :: _ => Loaded.within .summaryRow ((ofRow t.names row).mapError .data)

end Summary

/-- How many bytes a reader of a summary looks at: the header and the first row. -/
def summaryBytes (bytes : List UInt8) : Nat := recordBytes 2 bytes

/-- The summary of a text. -/
def readSummary (bytes : List UInt8) : Loaded Summary :=
  Summary.ofTable (Named.ofRecords (splitRecords bytes))

end BatchMeans.Table
