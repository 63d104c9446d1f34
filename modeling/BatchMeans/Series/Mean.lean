import BatchMeans.Arith
import BatchMeans.Fault

/- Means of a series of readings.

   The arithmetic mean suits latencies and sizes, the harmonic mean suits rates.
   Both are one left-to-right sum of a term per reading, so a result does not
   depend on how the sum is grouped. -/
namespace BatchMeans

inductive MeanMethod where
  | arithmetic
  | harmonic
deriving DecidableEq

namespace MeanMethod

def name : MeanMethod → String
  | arithmetic => "arithmetic"
  | harmonic => "harmonic"

def ofName? : String → Option MeanMethod
  | "arithmetic" => some arithmetic
  | "harmonic" => some harmonic
  | _ => none

variable {α : Type} [Arith α]

/-- What one reading adds to the sum: itself, or its reciprocal. -/
@[inline] def term (method : MeanMethod) (x : α) : α :=
  match method with
  | arithmetic => x
  | harmonic => 1 / x

/-- The mean of a list, without any check. -/
@[specialize] def reduce (method : MeanMethod) (xs : List α) : α :=
  let sum := Arith.sumBy method.term xs
  match method with
  | arithmetic => sum / Arith.count xs.length
  | harmonic => Arith.count xs.length / sum

end MeanMethod

namespace Series
variable {α : Type} [Arith α]

/-- A series has at least one reading and every reading is finite; the first that is not is named. -/
@[specialize] def checkFinite (xs : List α) : Checked α Unit :=
  if xs.isEmpty then refuse .emptySeries
  else match xs.zipIdx.find? fun (x, _) => ! Arith.isFinite x with
    | some (x, i) => refuse (.notFinite i x)
    | none => .ok ()

/-- The harmonic mean needs readings other than zero; the first zero is named. -/
@[specialize] def checkMethod (xs : List α) : MeanMethod → Checked α Unit
  | .arithmetic => .ok ()
  | .harmonic => match xs.zipIdx.find? fun (x, _) => Arith.IsZero x with
    | some (_, i) => refuse (.zeroReading i)
    | none => .ok ()

/-- The mean of a checked series. -/
@[specialize] def mean (xs : List α) (method : MeanMethod) : Checked α α := do
  checkFinite xs
  checkMethod xs method
  return method.reduce xs

end Series
end BatchMeans
