import BatchMeans.Text.Blank

/- Comma-separated records.

   A text is cut into records of fields, byte by byte. Any of `\r`, `\n` and `\r\n` ends a record, and
   empty lines give none. A field that begins with a quote runs to the closing quote, commas and
   line ends included; a doubled quote inside it stands for one. A quote
   elsewhere is an ordinary byte. -/
namespace BatchMeans.Table

/-- Where in a record the next byte stands. -/
inductive Place where
  | recordStart
  | fieldStart
  | inField
  | inQuotes
  | afterQuote

/-- The records cut so far, and the unfinished one; the newest comes first. -/
structure Splitter where
  place : Place
  field : List UInt8
  fields : List (List UInt8)
  records : List (List (List UInt8))

namespace Splitter

def start : Splitter := ⟨.recordStart, [], [], []⟩

def isLineEnd (b : UInt8) : Bool := b == 10 || b == 13
def isComma (b : UInt8) : Bool := b == 44
def isQuote (b : UInt8) : Bool := b == 34

/-- A byte joins the field. -/
def keep (s : Splitter) (place : Place) (b : UInt8) : Splitter :=
  { s with place := place, field := b :: s.field }

/-- The field ends, and another follows. -/
def endField (s : Splitter) : Splitter :=
  { s with place := .fieldStart, field := [], fields := s.field.reverse :: s.fields }

/-- The field and its record end. -/
def endRecord (s : Splitter) : Splitter :=
  { place := .recordStart
    field := []
    fields := []
    records := (s.field.reverse :: s.fields).reverse :: s.records }

/-- A byte outside quotes. -/
def plainByte (s : Splitter) (b : UInt8) : Splitter :=
  if isComma b then s.endField else if isLineEnd b then s.endRecord else s.keep .inField b

/-- The first byte of a field. -/
def firstByte (s : Splitter) (b : UInt8) : Splitter :=
  if isQuote b then { s with place := .inQuotes } else s.plainByte b

def step (s : Splitter) (b : UInt8) : Splitter :=
  match s.place with
  | .recordStart => if isLineEnd b then s else s.firstByte b
  | .fieldStart => s.firstByte b
  | .inField => s.plainByte b
  | .inQuotes => if isQuote b then { s with place := .afterQuote } else s.keep .inQuotes b
  | .afterQuote => if isQuote b then s.keep .inQuotes b else s.plainByte b

/-- At the end of the text an unfinished record counts. -/
def finish (s : Splitter) : List (List (List UInt8)) :=
  match s.place with
  | .recordStart => s.records.reverse
  | _ => s.endRecord.records.reverse

end Splitter

/-- How many bytes are looked at before `count` records have ended. -/
def Splitter.bytesUntil (count : Nat) (s : Splitter) : List UInt8 → Nat
  | [] => 0
  | b :: rest => if count ≤ s.records.length then 0 else (s.step b).bytesUntil count rest + 1

/-- A text without a byte order mark at its front. -/
def dropMark : List UInt8 → List UInt8
  | 0xEF :: 0xBB :: 0xBF :: rest => rest
  | bytes => bytes

/-- The records of a text, as bytes. -/
def splitRecords (bytes : List UInt8) : List (List (List UInt8)) :=
  ((dropMark bytes).foldl Splitter.step Splitter.start).finish

/-- How many bytes of a text hold its first `count` records. -/
def recordBytes (count : Nat) (bytes : List UInt8) : Nat :=
  bytes.length - (dropMark bytes).length + Splitter.start.bytesUntil count (dropMark bytes)

/-- A field as trimmed text, if it is valid UTF-8. -/
def decodeField? (bytes : List UInt8) : Option String :=
  (String.fromUTF8? ⟨bytes.toArray⟩).map Text.trim

/-- A record as trimmed texts, if all its fields are valid UTF-8. -/
def decodeRecord? (fields : List (List UInt8)) : Option (List String) := fields.mapM decodeField?

end BatchMeans.Table
