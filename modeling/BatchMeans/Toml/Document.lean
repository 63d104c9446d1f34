import BatchMeans.Toml.Text

/- Reading a TOML document.

   A document is a sequence of comments, headers and keys with values. Keys may be dotted and
   quoted; values are texts, numbers, booleans, dates, arrays and inline
   tables. Arrays and inline tables nest less than eighty deep. -/
namespace BatchMeans.Toml

/-! ## Keys -/

def isBareChar (c : Char) : Bool := c.isAlphanum || c == '-' || c == '_'

/-- One part of a key, and the rest. -/
def keyPart? (cs : List Char) : Option (String × List Char) :=
  match cs with
  | '"' :: rest => lineText? '"' (rest.length + 1) [] rest
  | '\'' :: rest => lineText? '\'' (rest.length + 1) [] rest
  | cs =>
    let (name, rest) := cs.span isBareChar
    if name.isEmpty then none else some (String.ofList name, rest)

/-- A key with its dots; blanks may stand around each part. -/
def key? : Nat → List Char → Option (List String × List Char)
  | 0, _ => none
  | fuel + 1, cs => do
    let (part, rest) ← keyPart? (skipSpace cs)
    match skipSpace rest with
    | '.' :: rest =>
      let (parts, rest) ← key? fuel rest
      return (part :: parts, rest)
    | rest => return ([part], rest)

/-- Keys have fewer parts than this, and arrays and inline tables nest less deeply. -/
def depthLimit : Nat := 80

/-- A key, as the path to its table and its own name, and the rest. -/
def readKey? (cs : List Char) : Option (List String × String × List Char) := do
  let (parts, rest) ← key? (depthLimit - 1) cs
  let (path, name) ← Builder.splitLast? parts
  return (path, name, rest)

/-! ## Values -/

/-- What follows a comment that begins with the number sign already read. -/
def skipComment (cs : List Char) : List Char := cs.dropWhile isPlainChar

/-- The text after blanks, line ends and comments. -/
def skipFiller : Nat → List Char → List Char
  | 0, cs => cs
  | fuel + 1, cs =>
    match skipSpaceLines (cs.length + 1) cs with
    | '#' :: rest => match lineEnd? (skipComment rest) with
      | some rest => skipFiller fuel rest
      | none => '#' :: rest
    | cs => cs

mutual

/-- A value at the front of a text, and the rest. -/
def value? (depth : Nat) : Nat → List Char → Option (Item × List Char)
  | 0, _ => none
  | fuel + 1, cs =>
    match cs with
    | '"' :: rest => (readText? '"' rest).map fun (s, rest) => (.text s, rest)
    | '\'' :: rest => (readText? '\'' rest).map fun (s, rest) => (.text s, rest)
    | '[' :: rest => if depth + 1 < depthLimit then items? (depth + 1) fuel [] rest else none
    | '\x7b' :: rest =>
      if depth + 1 < depthLimit then
        match skipSpace rest with
        | '\x7d' :: rest => some (.inline [], rest)
        | rest => members? (depth + 1) fuel [] rest
      else none
    | cs => readScalar? cs

/-- The values of an array up to its closing bracket; a comma may follow the last. -/
def items? (depth : Nat) : Nat → List Item → List Char → Option (Item × List Char)
  | 0, _, _ => none
  | fuel + 1, acc, cs =>
    match skipFiller (cs.length + 1) cs with
    | ']' :: rest => some (.array acc.reverse, rest)
    | cs => do
      let (v, rest) ← value? depth fuel cs
      match skipFiller (rest.length + 1) rest with
      | ',' :: rest => items? depth fuel (v :: acc) rest
      | ']' :: rest => some (.array (v :: acc).reverse, rest)
      | _ => none

/-- The members of an inline table up to its closing brace; they stand on one line, without a last comma. -/
def members? (depth : Nat) : Nat → Entries → List Char → Option (Item × List Char)
  | 0, _, _ => none
  | fuel + 1, es, cs => do
    let (path, name, rest) ← readKey? cs
    let '=' :: rest := rest | none
    let (v, rest) ← value? depth fuel (skipSpace rest)
    let es ← es.insert? path name v
    match skipSpace rest with
    | ',' :: rest => members? depth fuel es rest
    | '\x7d' :: rest => some (.inline es, rest)
    | _ => none

end

/-! ## Lines -/

/-- What follows the end of a line, with an optional comment before it. -/
def lineRest? (cs : List Char) : Option (List Char) :=
  let cs := match skipSpace cs with
    | '#' :: rest => skipComment rest
    | cs => cs
  if cs.isEmpty then some [] else lineEnd? cs

/-- A header in single or doubled brackets, the opening ones already read. -/
def header? (double : Bool) (cs : List Char) : Option (List String × List Char) := do
  let (path, name, rest) ← readKey? cs
  let rest ← match double, rest with
    | true, ']' :: ']' :: rest => lineRest? rest
    | false, ']' :: rest => lineRest? rest
    | _, _ => none
  return (path ++ [name], rest)

/-- A key with its value. -/
def assignment? (cs : List Char) : Option (List String × String × Item × List Char) := do
  let (path, name, rest) ← readKey? cs
  let '=' :: rest := rest | none
  let (v, rest) ← value? 0 (rest.length + 1) (skipSpace rest)
  return (path, name, v, ← lineRest? rest)

/-- The lines of a document, added to the tables read so far. -/
def lines? : Nat → Builder → List Char → Option Builder
  | 0, _, _ => none
  | fuel + 1, b, cs =>
    match skipSpace cs with
    | [] => some b
    | '[' :: '[' :: rest => do
      let (path, rest) ← header? true rest
      lines? fuel (← b.openElement path) rest
    | '[' :: rest => do
      let (path, rest) ← header? false rest
      lines? fuel (← b.openTable path) rest
    | c :: rest =>
      if c = '#' ∨ c = '\n' ∨ c = '\r' then do lines? fuel b (← lineRest? (c :: rest))
      else do
        let (path, name, v, rest) ← assignment? (c :: rest)
        lines? fuel (← b.addValue path name v) rest

/-- A text without a byte order mark at its front. -/
def dropMark : List Char → List Char
  | '\uFEFF' :: rest => rest
  | cs => cs

/-- The entries of a document, if the text is one. -/
def readDocument? (text : String) : Option Entries := do
  let cs := dropMark text.toList
  let b ← lines? (cs.length + 1) .start cs
  b.finish

end BatchMeans.Toml
