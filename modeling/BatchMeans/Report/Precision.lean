import BatchMeans.Decimal.Notation

/- How much of a number a report shows. -/
namespace BatchMeans.Report
open Decimal

/-- How the figures that rest on a critical value are shown: like all others, or to ten digits. -/
inductive Precision where
  | full
  | tenDigits

/-- A measured number in a text report. -/
def plain (x : Float) : String := NumberFormat.plain.write x

/-- A measured number in a JSON report. -/
def json (x : Float) : String := NumberFormat.json.write x

namespace Precision

/-- A figure that rests on a critical value, in a text report. -/
def text (p : Precision) (x : Float) : String :=
  match p with
  | full => plain x
  | tenDigits => NumberFormat.tenDigits.write x

/-- A figure that rests on a critical value, in a JSON report. -/
def json (p : Precision) (x : Float) : String :=
  match p with
  | full => NumberFormat.json.write x
  | tenDigits => if x.isFinite then NumberFormat.tenDigits.write x else NumberFormat.json.write x

end Precision
end BatchMeans.Report
