import BatchMeans.Decimal.Reading
import BatchMeans.Failure
import BatchMeans.Table.Record

/- Tables whose first record names the columns. -/
namespace BatchMeans.Table

/-- The names of the columns and the rows under them. A header that is not UTF-8 gives no names. -/
structure Named where
  names : Option (List String)
  rows : List (Except DataFault (List String))

/-- A row has as many fields as the header, and is UTF-8; its length is looked at first. -/
def decodeRow (width : Nat) (fields : List (List UInt8)) : Except DataFault (List String) :=
  if fields.length ≠ width then .error .unequalLengths
  else match decodeRecord? fields with
    | some row => .ok row
    | none => .error .notUtf8

/-- The table of a list of records; without any record it has no rows. -/
def Named.ofRecords : List (List (List UInt8)) → Named
  | [] => ⟨some [], []⟩
  | header :: rows => ⟨decodeRecord? header, rows.map (decodeRow header.length)⟩

/-- The fields under a name, from left to right. -/
def fieldsUnder (name : String) (names row : List String) : List String :=
  ((names.zip row).filter fun p => p.1 == name).map (·.2)

/-- The number in a named column of a row. The name has to occur exactly once. Where the columns have no names,
    the field at the given position is taken. -/
def number? (names : Option (List String)) (position : Nat) (name : String) (row : List String) : Option Float :=
  match names with
  | none => row[position]?.bind Decimal.readNumber?
  | some names => match fieldsUnder name names row with
    | [field] => Decimal.readNumber? field
    | _ => none

end BatchMeans.Table
