import BatchMeans.Throughput.Round

/- A model of how long an amount of work takes. -/
namespace BatchMeans.Throughput

/-- Predicts the duration `overhead + work / rate`, in nanoseconds. -/
structure RateModel (α : Type) where
  overhead : α
  rate : α

namespace RateModel
variable {α : Type} [Arith α]

/-- Nanoseconds in a second. -/
def second : α := Arith.count 1000000000

/-- The overhead is not negative, the rate is positive, and both are finite. -/
def check (m : RateModel α) : Checked α Unit := do
  require (0 ≤ m.overhead ∧ Arith.isFinite m.overhead = true) (.overheadNegative m.overhead)
  require (Arith.IsPositive m.rate) (.rateNotPositive m.rate)

/-- A model from checked parts. -/
def ofParts (overhead rate : α) : Checked α (RateModel α) := do
  let m : RateModel α := ⟨overhead, rate⟩
  m.check
  return m

/-- A model without overhead. -/
def naive (rate : α) : Checked α (RateModel α) := ofParts 0 rate

/-- A model from an overhead in seconds and a rate per second. -/
def ofSeconds (overhead rate : α) : Checked α (RateModel α) :=
  ofParts (overhead * second) (rate / second)

def duration (m : RateModel α) (work : α) : α := m.overhead + work / m.rate

def ratePerSecond (m : RateModel α) : α := m.rate * second

end RateModel
end BatchMeans.Throughput
