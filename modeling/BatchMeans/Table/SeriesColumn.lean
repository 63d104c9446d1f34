import BatchMeans.Decimal.Reading
import BatchMeans.Failure
import BatchMeans.Table.Record

/- A series of readings from one field of each record. -/
namespace BatchMeans.Table

/-- The finite number in a field of a record. -/
def reading? (field : Nat) (fields : List String) : Option Float :=
  match fields[field]?.bind Decimal.readNumber? with
  | some x => if x.isFinite then some x else none
  | none => none

/-- The readings of the records from index `i` on; a record that is not UTF-8 is `none`.

    The first `skip` records are passed over, but have to be readable. Without `skip`, a first record
    without a number is a header and is passed over too. -/
def readingsFrom (field : Nat) (skip : Option Nat) : Nat → List (Option (List String)) → Loaded (List Float)
  | _, [] => .ok []
  | i, none :: _ => .error (.during (.readLine (i + 1)) (.data .notUtf8))
  | i, some fields :: rest =>
    if i < skip.getD 0 then readingsFrom field skip (i + 1) rest
    else match reading? field fields with
      | some x => (readingsFrom field skip (i + 1) rest).map (x :: ·)
      | none =>
        if i = 0 ∧ skip = none then readingsFrom field skip (i + 1) rest
        else .error (.noNumber field (i + 1) fields)

/-- The series in a field of the given records. -/
def seriesOfRecords (field : Nat) (skip : Option Nat) (records : List (Option (List String))) :
    Loaded (List Float) :=
  readingsFrom field skip 0 records

/-- The series in a field of a text. -/
def readSeries (bytes : List UInt8) (field : Nat) (skip : Option Nat) : Loaded (List Float) :=
  seriesOfRecords field skip ((splitRecords bytes).map decodeRecord?)

end BatchMeans.Table
