import BatchMeans.Table.NamedColumns
import BatchMeans.Throughput.Round

/- Rounds from a table with a column of work amounts and one of durations. -/
namespace BatchMeans.Table
open Throughput

/-- The two numbers of a row. -/
def roundOfRow (names : Option (List String)) (row : Except DataFault (List String)) :
    Except DataFault (Float × Float) := do
  let fields ← row
  match number? names 0 "work_amount" fields, number? names 1 "round_duration" fields with
  | some work, some duration => .ok (work, duration)
  | _, _ => .error .undecodable

/-- The rounds of the rows from number `i` on. The first row that cannot be read, or whose round is not valid,
    is named. -/
def roundsFrom (names : Option (List String)) :
    Nat → List (Except DataFault (List String)) → Loaded (List (Round Float))
  | _, [] => .ok []
  | i, row :: rest => do
    let (work, duration) ← Loaded.within (.roundRow i) ((roundOfRow names row).mapError .data)
    let round ← Loaded.within (.roundValues i) (Checked.loaded (Round.ofParts work duration))
    return round :: (← roundsFrom names (i + 1) rest)

/-- The rounds of a table, in the order of its rows. -/
def roundsOfTable (t : Named) : Loaded (List (Round Float)) := roundsFrom t.names 1 t.rows

/-- The rounds of a text. -/
def readRounds (bytes : List UInt8) : Loaded (List (Round Float)) :=
  roundsOfTable (Named.ofRecords (splitRecords bytes))

end BatchMeans.Table
