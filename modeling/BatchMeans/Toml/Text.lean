import BatchMeans.Toml.Scalar

/- The quoted texts of TOML.

   A text stands between quotes or apostrophes, on one line or, between tripled ones, on several.
   Between quotes a backslash begins an escape; between apostrophes
   every character stands for itself. Each reader gets the text after the
   opening mark. -/
namespace BatchMeans.Toml

/-- The characters that may stand for themselves: the tab and all but controls. -/
def isPlainChar (c : Char) : Bool :=
  c == '\t' || (0x20 ≤ c.toNat && c.toNat ≤ 0x7E) || 0x80 ≤ c.toNat

/-- A line end, and the rest. -/
def lineEnd? : List Char → Option (List Char)
  | '\n' :: rest => some rest
  | '\r' :: '\n' :: rest => some rest
  | _ => none

/-- The text after blanks and tabs. -/
def skipSpace (cs : List Char) : List Char := cs.dropWhile fun c => c == ' ' || c == '\t'

/-- The text after blanks, tabs and line ends. -/
def skipSpaceLines : Nat → List Char → List Char
  | 0, cs => cs
  | fuel + 1, cs =>
    let cs := skipSpace cs
    match lineEnd? cs with
    | some rest => skipSpaceLines fuel rest
    | none => cs

/-- The character of a code point in hexadecimal digits, and the rest. -/
def codePoint? (count : Nat) (cs : List Char) : Option (Char × List Char) := do
  let ds := cs.take count
  if ds.length ≠ count then none
  let n ← ds.foldlM (fun n c => do return n * 16 + (← digitValue? 16 c)) 0
  if n < 0xD800 ∨ (0xE000 ≤ n ∧ n < 0x110000) then some (Char.ofNat n, cs.drop count) else none

/-- The character of an escape after its backslash, and the rest. -/
def escape? : List Char → Option (Char × List Char)
  | 'b' :: rest => some ('\x08', rest)
  | 't' :: rest => some ('\t', rest)
  | 'n' :: rest => some ('\n', rest)
  | 'f' :: rest => some ('\x0c', rest)
  | 'r' :: rest => some ('\r', rest)
  | '"' :: rest => some ('"', rest)
  | '\\' :: rest => some ('\\', rest)
  | 'u' :: rest => codePoint? 4 rest
  | 'U' :: rest => codePoint? 8 rest
  | _ => none

/-- A text on one line; `acc` holds its characters so far, the newest first. -/
def lineText? (mark : Char) : Nat → List Char → List Char → Option (String × List Char)
  | 0, _, _ => none
  | _, _, [] => none
  | fuel + 1, acc, c :: rest =>
    if c = mark then some (String.ofList acc.reverse, rest)
    else if c = '\\' ∧ mark = '"' then do
      let (d, rest) ← escape? rest
      lineText? mark fuel (d :: acc) rest
    else if isPlainChar c then lineText? mark fuel (c :: acc) rest
    else none

/-- A text on several lines. Of three to five marks in a row the last three close it. A backslash at the end of a line
    takes the line end and all white space after it with it. -/
def linesText? (mark : Char) : Nat → List Char → List Char → Option (String × List Char)
  | 0, _, _ => none
  | _, _, [] => none
  | fuel + 1, acc, c :: rest =>
    if c = mark then
      let marks := (c :: rest).takeWhile (· == mark)
      let after := rest.drop (marks.length - 1)
      if marks.length < 3 then linesText? mark fuel (marks ++ acc) after
      else
        let extra := min (marks.length - 3) 2
        some (String.ofList (List.replicate extra mark ++ acc).reverse, (c :: rest).drop (extra + 3))
    else if c = '\\' ∧ mark = '"' then
      match lineEnd? (skipSpace rest) with
      | some after => linesText? mark fuel acc (skipSpaceLines fuel after)
      | none => do
        let (d, rest) ← escape? rest
        linesText? mark fuel (d :: acc) rest
    else match lineEnd? (c :: rest) with
      | some after => linesText? mark fuel ('\n' :: acc) after
      | none => if isPlainChar c then linesText? mark fuel (c :: acc) rest else none

/-- A text after its opening mark, the mark already read once. A line end right after a tripled mark is dropped. -/
def readText? (mark : Char) (cs : List Char) : Option (String × List Char) :=
  match cs with
  | a :: b :: rest =>
    if a = mark ∧ b = mark then
      let body := (lineEnd? rest).getD rest
      linesText? mark (body.length + 1) [] body
    else lineText? mark (cs.length + 1) [] cs
  | cs => lineText? mark (cs.length + 1) [] cs

end BatchMeans.Toml
