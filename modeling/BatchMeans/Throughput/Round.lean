import BatchMeans.Arith
import BatchMeans.Fault

/- Benchmark rounds: an amount of work and the time it took. -/
namespace BatchMeans.Throughput

/-- Work done in a round, and its duration in nanoseconds. -/
structure Round (α : Type) where
  work : α
  duration : α

namespace Round
variable {α : Type} [Arith α]

/-- Both parts are positive and finite. -/
def check (r : Round α) : Checked α Unit := do
  require (Arith.IsPositive r.work) (.workNotPositive r.work)
  require (Arith.IsPositive r.duration) (.durationNotPositive r.duration)

/-- Work per nanosecond. -/
def rate (r : Round α) : α := r.work / r.duration

/-- A round from checked parts. -/
def ofParts (work duration : α) : Checked α (Round α) := do
  let r : Round α := ⟨work, duration⟩
  r.check
  return r

/-- The rounds of a list are checked in order; the fault names the first bad one. -/
def checkFrom (i : Nat) : List (Round α) → Checked α Unit
  | [] => .ok ()
  | r :: rest =>
    match r.check with
    | .error (.invalid cause) => refuse (.round i cause)
    | .error fault => .error fault
    | .ok () => checkFrom (i + 1) rest

def checkAll (rs : List (Round α)) : Checked α Unit := checkFrom 0 rs

end Round
end BatchMeans.Throughput
