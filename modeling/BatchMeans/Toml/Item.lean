/- The contents of a TOML document. -/
namespace BatchMeans.Toml

/-- How a table came to be: by a header of its own, on the way to another header, or by a dotted key. -/
inductive TableKind where
  | headed
  | passed
  | dotted
deriving DecidableEq

/-- What a key stands for. Booleans, dates and times are kept apart from numbers and texts only. -/
inductive Item where
  | text (s : String)
  | integer (n : Int)
  | number (x : Float)
  | other
  | array (items : List Item)
  | inline (entries : List (String × Item))
  | table (kind : TableKind) (entries : List (String × Item))
  /-- The tables under a doubled header, the newest first. -/
  | tables (elements : List (List (String × Item)))

/-- Keys and what they stand for, in the order of their appearance. -/
abbrev Entries := List (String × Item)

namespace Entries

def get? (es : Entries) (key : String) : Option Item := List.lookup key es

/-- Replace what a key stands for; a new key is added at the end. -/
def put (es : Entries) (key : String) (item : Item) : Entries :=
  match es with
  | [] => [(key, item)]
  | (k, old) :: rest => if k = key then (key, item) :: rest else (k, old) :: put rest key item

def remove (es : Entries) (key : String) : Entries := es.filter fun e => e.1 != key

/-- Apply `f` to the table at the end of a path. Tables that are missing on the way are made, by a dotted
    key or by a header. A header may not pass through a value, and a dotted key may not pass through a
    table with a header of its own. Of an array of tables the newest is meant. -/
def modifyAt {β : Type} (byKey : Bool) (f : TableKind → Entries → Option (β × Entries)) :
    List String → TableKind → Entries → Option (β × Entries)
  | [], kind, es => f kind es
  | key :: path, _, es =>
    match es.get? key with
    | none => do
      let kind := if byKey then TableKind.dotted else .passed
      let (b, inner) ← modifyAt byKey f path kind []
      return (b, es.put key (.table kind inner))
    | some (.table kind inner) =>
      if byKey ∧ kind = .headed then none
      else do
        let (b, inner) ← modifyAt byKey f path kind inner
        return (b, es.put key (.table kind inner))
    | some (.tables (newest :: older)) => do
      let (b, newest) ← modifyAt byKey f path .headed newest
      return (b, es.put key (.tables (newest :: older)))
    | some _ => none

/-- Add a value under a dotted key. A key may occur once, and a dotted key may only add to a table that dotted
    keys made. -/
def insert? (es : Entries) (path : List String) (key : String) (value : Item) : Option Entries :=
  let add (kind : TableKind) (inner : Entries) : Option (Unit × Entries) :=
    if (kind == .dotted) == path.isEmpty then none
    else match inner.get? key with
      | some _ => none
      | none => some ((), inner.put key value)
  (modifyAt true add path .headed es).map (·.2)

end Entries

/-! ## The tables of a document -/

/-- A document while it is read: the finished tables, and the table under the latest header. -/
structure Builder where
  root : Entries
  path : List String
  current : Entries
  inArray : Bool

namespace Builder

def start : Builder := ⟨[], [], [], false⟩

/-- The path to the parent of a table, and the table's own key. -/
def splitLast? (path : List String) : Option (List String × String) :=
  path.getLast?.map fun key => (path.dropLast, key)

/-- Put the latest table in its place. -/
def finish (b : Builder) : Option Entries :=
  match splitLast? b.path with
  | none => some b.current
  | some (parent, key) =>
    let place (_ : TableKind) (es : Entries) : Option (Unit × Entries) :=
      if b.inArray then
        match es.get? key with
        | some (.tables elements) => some ((), es.put key (.tables (b.current :: elements)))
        | none => some ((), es.put key (.tables [b.current]))
        | some _ => none
      else match es.get? key with
        | none => some ((), es.put key (.table .headed b.current))
        | some _ => none
    (Entries.modifyAt false place parent .headed b.root).map (·.2)

/-- A key and its value under the latest header. -/
def addValue (b : Builder) (path : List String) (key : String) (value : Item) : Option Builder :=
  (b.current.insert? path key value).map fun es => { b with current := es }

/-- A header. A table that was only passed on the way to another header may still be given its own. -/
def openTable (b : Builder) (path : List String) : Option Builder := do
  let root ← b.finish
  let (parent, key) ← splitLast? path
  let take (_ : TableKind) (es : Entries) : Option (Entries × Entries) :=
    match es.get? key with
    | none => some ([], es)
    | some (.table .passed inner) => some (inner, es.remove key)
    | some _ => none
  let (current, root) ← Entries.modifyAt false take parent .headed root
  return ⟨root, path, current, false⟩

/-- A doubled header, which adds a table to an array of tables. -/
def openElement (b : Builder) (path : List String) : Option Builder := do
  let root ← b.finish
  let (parent, key) ← splitLast? path
  let check (_ : TableKind) (es : Entries) : Option (Unit × Entries) :=
    match es.get? key with
    | none => some ((), es)
    | some (.tables _) => some ((), es)
    | some _ => none
  let (_, root) ← Entries.modifyAt false check parent .headed root
  return ⟨root, path, [], true⟩

end Builder
end BatchMeans.Toml
