/- JSON documents as the reports write them: an object has one member a line, indented by two blanks. -/
namespace BatchMeans.Report

/-- A document. Numbers are given by their text, and member names need no escape. -/
inductive Json where
  | null
  | number (text : String)
  | object (members : List (String × Json))

namespace Json

def ofNat (n : Nat) : Json := number (toString n)

/-- The blanks at the start of a line inside `depth` objects. -/
def indent (depth : Nat) : String := String.ofList (List.replicate (2 * depth) ' ')

mutual

/-- The text of a document that stands inside `depth` objects. -/
def write (depth : Nat) : Json → String
  | null => "null"
  | number text => text
  | object [] => "\x7b\x7d"
  | object (m :: rest) =>
    "\x7b\n" ++ writeMembers (depth + 1) (m :: rest) ++ "\n" ++ indent depth ++ "\x7d"

/-- The members of an object, one a line. -/
def writeMembers (depth : Nat) : List (String × Json) → String
  | [] => ""
  | [(name, value)] => indent depth ++ "\"" ++ name ++ "\": " ++ write depth value
  | (name, value) :: m :: rest =>
    indent depth ++ "\"" ++ name ++ "\": " ++ write depth value ++ ",\n" ++ writeMembers depth (m :: rest)

end

end Json
end BatchMeans.Report
