import BatchMeans.Decimal.Reading
import BatchMeans.Toml.Item

/- Numbers, words, dates and times of TOML.

   Each is a run of letters, digits, signs, points, colons and underscores. A run is
   classified as a whole: it is a value when it has exactly one of the
   forms below. -/
namespace BatchMeans.Toml
open Decimal

/-- The characters of a run. -/
def isRunChar (c : Char) : Bool :=
  c.isAlphanum || c == '+' || c == '-' || c == '.' || c == ':' || c == '_'

/-! ## Digits -/

/-- The value of a digit in some base up to sixteen. -/
def digitValue? (base : Nat) (c : Char) : Option Nat :=
  let v :=
    if c.isDigit then c.toNat - 48
    else if 'a' ≤ c ∧ c ≤ 'f' then c.toNat - 87
    else if 'A' ≤ c ∧ c ≤ 'F' then c.toNat - 55
    else 16
  if v < base then some v else none

/-- Digits with single underscores between them, as one number after the digits read so far. -/
def groupedValue? (base : Nat) : List Char → Nat → Option Nat
  | [], n => some n
  | '_' :: c :: rest, n => do groupedValue? base rest (n * base + (← digitValue? base c))
  | c :: rest, n => do groupedValue? base rest (n * base + (← digitValue? base c))

/-- The digits of a group of at least one, the underscores left out. -/
def groupedDigits? (cs : List Char) : Option (List Char) :=
  match cs with
  | [] => none
  | '_' :: _ => none
  | cs => (groupedValue? 10 cs 0).map fun _ => cs.filter (· != '_')

/-- A decimal whole part: like a group, but without leading zeros. -/
def wholeDigits? (cs : List Char) : Option (List Char) := do
  let ds ← groupedDigits? cs
  match ds with
  | '0' :: _ :: _ => none
  | _ => some ds

/-! ## Numbers -/

/-- Integers have sixty-four bits. -/
def integer? (n : Int) : Option Item :=
  if -9223372036854775808 ≤ n ∧ n < 9223372036854775808 then some (.integer n) else none

/-- An integer in another base, which has no sign. -/
def basedInteger? (base : Nat) (cs : List Char) : Option Item :=
  match cs with
  | [] => none
  | '_' :: _ => none
  | cs => do integer? ((← groupedValue? base cs 0 : Nat) : Int)

/-- The exponent of a number after its mark. -/
def exponent? (cs : List Char) : Option Int := do
  let (negative, body) := takeSign cs
  let n := digitsValue (← groupedDigits? body)
  return if negative then -(n : Int) else (n : Int)

/-- Too large a number is refused; one too far below zero is negative infinity. -/
def finishNumber? (negative : Bool) (ds fraction : List Char) (e : Int) : Option Item :=
  let x := nearestDouble (digitsValue (ds ++ fraction)) (e - (fraction.length : Int))
  if negative then some (.number (-x)) else if x.isFinite then some (.number x) else none

/-- An integer or a number in decimal digits, after its sign. -/
def decimal? (negative : Bool) (cs : List Char) : Option Item := do
  let isGroup (c : Char) : Bool := c.isDigit || c == '_'
  let (whole, rest) := cs.span isGroup
  let ds ← wholeDigits? whole
  match rest with
  | [] =>
    let n := digitsValue ds
    integer? (if negative then -(n : Int) else (n : Int))
  | '.' :: rest =>
    let (group, rest) := rest.span isGroup
    let fraction ← groupedDigits? group
    match rest with
    | [] => finishNumber? negative ds fraction 0
    | c :: rest =>
      if c = 'e' ∨ c = 'E' then finishNumber? negative ds fraction (← exponent? rest) else none
  | c :: rest =>
    if c = 'e' ∨ c = 'E' then finishNumber? negative ds [] (← exponent? rest) else none

/-! ## Dates and times -/

/-- A number of exactly `count` digits, and the rest. -/
def fixedDigits? (count : Nat) (cs : List Char) : Option (Nat × List Char) :=
  let ds := cs.take count
  if ds.length = count ∧ ds.all Char.isDigit then some (digitsValue ds, cs.drop count) else none

/-- How many days a month has. -/
def daysInMonth (year month : Nat) : Nat :=
  let leap := year % 4 = 0 ∧ (year % 100 ≠ 0 ∨ year % 400 = 0)
  if month = 2 then (if leap then 29 else 28)
  else if month = 4 ∨ month = 6 ∨ month = 9 ∨ month = 11 then 30 else 31

/-- What follows a date at the front of a text. -/
def afterDate? (cs : List Char) : Option (List Char) := do
  let (year, rest) ← fixedDigits? 4 cs
  let '-' :: rest := rest | none
  let (month, rest) ← fixedDigits? 2 rest
  let '-' :: rest := rest | none
  let (day, rest) ← fixedDigits? 2 rest
  if 1 ≤ month ∧ month ≤ 12 ∧ 1 ≤ day ∧ day ≤ daysInMonth year month then some rest else none

/-- What follows the fraction of a second, if there is one. -/
def afterFraction? : List Char → Option (List Char)
  | '.' :: rest =>
    let (ds, rest) := takeDigits rest
    if ds.isEmpty then none else some rest
  | cs => some cs

/-- What follows a time of day at the front of a text. -/
def afterTime? (cs : List Char) : Option (List Char) := do
  let (hour, rest) ← fixedDigits? 2 cs
  let ':' :: rest := rest | none
  let (minute, rest) ← fixedDigits? 2 rest
  let ':' :: rest := rest | none
  let (second, rest) ← fixedDigits? 2 rest
  if hour ≤ 23 ∧ minute ≤ 59 ∧ second ≤ 60 then afterFraction? rest else none

/-- Whether a text is an offset from universal time, or nothing. -/
def isOffset (cs : List Char) : Bool :=
  match cs with
  | [] => true
  | ['Z'] => true
  | ['z'] => true
  | c :: rest =>
    (c == '+' || c == '-') && match fixedDigits? 2 rest with
      | some (hour, ':' :: rest) => match fixedDigits? 2 rest with
        | some (minute, []) => decide (hour ≤ 23 ∧ minute ≤ 59)
        | _ => false
      | _ => false

/-- Whether a text is a time of day with an optional offset. -/
def isOffsetTime (cs : List Char) : Bool :=
  match afterTime? cs with
  | some rest => isOffset rest
  | none => false

/-- A date, a date and time, or a time of day. -/
def moment? (cs : List Char) : Option Item :=
  match afterDate? cs with
  | some [] => some .other
  | some (c :: rest) => if (c == 'T' || c == 't') && isOffsetTime rest then some .other else none
  | none => if afterTime? cs = some [] then some .other else none

/-! ## Runs -/

/-- A run that begins with a letter. -/
def word? (cs : List Char) : Option Item :=
  if cs = ['t', 'r', 'u', 'e'] ∨ cs = ['f', 'a', 'l', 's', 'e'] then some .other
  else if cs = ['i', 'n', 'f'] then some (.number (1.0 / 0.0))
  else if cs = ['n', 'a', 'n'] then some (.number (0.0 / 0.0))
  else none

/-- A run after a sign. -/
def signed? (negative : Bool) (cs : List Char) : Option Item :=
  match word? cs with
  | some (.number x) => some (.number (if negative then -x else x))
  | some _ => none
  | none => decimal? negative cs

/-- The value that a run denotes. -/
def scalar? (cs : List Char) : Option Item :=
  match cs with
  | '+' :: rest => signed? false rest
  | '-' :: rest => signed? true rest
  | '0' :: 'x' :: rest => basedInteger? 16 rest
  | '0' :: 'o' :: rest => basedInteger? 8 rest
  | '0' :: 'b' :: rest => basedInteger? 2 rest
  | c :: _ =>
    if c.isDigit then match moment? cs with
      | some m => some m
      | none => decimal? false cs
    else word? cs
  | [] => none

/-- The value at the front of a text, and the rest. A date may be followed by a blank and a time of day. -/
def readScalar? (cs : List Char) : Option (Item × List Char) :=
  let (run, rest) := cs.span isRunChar
  match afterDate? run, rest with
  | some [], ' ' :: more =>
    let (time, after) := more.span isRunChar
    match fixedDigits? 2 time with
    | some (_, ':' :: _) => if isOffsetTime time then some (.other, after) else none
    | _ => some (.other, rest)
  | _, _ => (scalar? run).map fun v => (v, rest)

end BatchMeans.Toml
