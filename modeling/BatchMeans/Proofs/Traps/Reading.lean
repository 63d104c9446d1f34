import BatchMeans.Proofs.Table.Record
import BatchMeans.Proofs.Traps.Steps
import BatchMeans.Table.RoundRows
import BatchMeans.Table.SeriesColumn

/- Reading a table meets no trap.

   A reader numbers its records. A text has at most as many records as bytes, so
   no number goes beyond the number of bytes, which a machine that holds the text can
   count. A field is looked for by its position without a guard: there may be none. -/
namespace BatchMeans
open Table Throughput

namespace Guarded

/-- The readings of the records from index `i` on, numbered up to `limit`. -/
def readingsFrom (limit field : Nat) (skip : Option Nat) :
    Nat → List (Option (List String)) → Guarded Failure (List Float)
  | _, [] => .ok []
  | i, record :: rest => do
    let line ← successor limit i
    match record with
    | none => plain (.error (.during (.readLine line) (.data .notUtf8)))
    | some fields =>
      if i < skip.getD 0 then readingsFrom limit field skip line rest
      else match reading? field fields with
        | some x => do
          let others ← readingsFrom limit field skip line rest
          return x :: others
        | none =>
          if i = 0 ∧ skip = none then readingsFrom limit field skip line rest
          else plain (.error (.noNumber field line fields))

def readSeries (bytes : List UInt8) (field : Nat) (skip : Option Nat) :
    Guarded Failure (List Float) :=
  readingsFrom bytes.length field skip 0 ((splitRecords bytes).map decodeRecord?)

/-- The rounds of the rows from index `i` on, numbered up to `limit`. -/
def roundsFrom (limit : Nat) (names : Option (List String)) :
    Nat → List (Except DataFault (List String)) → Guarded Failure (List (Round Float))
  | _, [] => .ok []
  | i, row :: rest => do
    let number ← successor limit i
    let (work, duration) ← plain
      (Loaded.within (.roundRow number) ((roundOfRow names row).mapError .data))
    let round ← plain
      (Loaded.within (.roundValues number) (Checked.loaded (Round.ofParts work duration)))
    let others ← roundsFrom limit names number rest
    return round :: others

def readRounds (bytes : List UInt8) : Guarded Failure (List (Round Float)) :=
  let table := Named.ofRecords (splitRecords bytes)
  roundsFrom bytes.length table.names 0 table.rows

end Guarded

namespace Computes

/-- The induction is on the records: each takes one number of those that are left. -/
theorem readingsFrom (limit field : Nat) (skip : Option Nat) (records : List (Option (List String)))
    (i : Nat) (h : i + records.length ≤ limit) :
    Computes (Guarded.readingsFrom limit field skip i records)
      (Table.readingsFrom field skip i records) := by
  induction records generalizing i with
  | nil => exact .ok []
  | cons record rest ih =>
    rw [List.length_cons] at h
    have hrest := ih (i + 1) (by omega)
    refine .step (Guarded.successor_eq (by omega)) ?_
    cases record with
    | none => exact .plain _
    | some fields =>
      refine .ite (fun _ => hrest) fun _ => ?_
      cases reading? field fields with
      | some x => exact hrest.map (x :: ·)
      | none => exact .ite (fun _ => hrest) fun _ => .plain _

theorem readSeries (bytes : List UInt8) (field : Nat) (skip : Option Nat) :
    Computes (Guarded.readSeries bytes field skip) (Table.readSeries bytes field skip) := by
  apply readingsFrom
  rw [List.length_map, Nat.zero_add]
  exact length_splitRecords_le bytes

theorem roundsFrom (limit : Nat) (names : Option (List String))
    (rows : List (Except DataFault (List String))) (i : Nat) (h : i + rows.length ≤ limit) :
    Computes (Guarded.roundsFrom limit names i rows) (Table.roundsFrom names (i + 1) rows) := by
  induction rows generalizing i with
  | nil => exact .ok []
  | cons row rest ih =>
    rw [List.length_cons] at h
    refine .step (Guarded.successor_eq (by omega)) ?_
    refine .check fun pair _ => ?_
    refine .check fun round _ => ?_
    exact .bind (ih (i + 1) (by omega)) fun _ _ => .ok _

theorem readRounds (bytes : List UInt8) :
    Computes (Guarded.readRounds bytes) (Table.readRounds bytes) := by
  apply roundsFrom
  rw [Nat.zero_add]
  exact Nat.le_trans (length_rows_le _) (length_splitRecords_le bytes)

end Computes
end BatchMeans
