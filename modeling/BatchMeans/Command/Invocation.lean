import BatchMeans.Analysis.Settings
import BatchMeans.Command.Grammar
import BatchMeans.Decimal.Reading

/- The two commands and their options. -/
namespace BatchMeans.Command

/-- How a report is written. -/
inductive Format where
  | text
  | json
deriving DecidableEq

def Format.ofName? : String → Option Format
  | "text" => some text
  | "json" => some json
  | _ => none

/-- How much is said beside the report. -/
structure Loudness where
  verbose : Bool
  quiet : Bool

/-- Settings given as options; each overrides the configuration. -/
structure Overrides where
  preset : Option Preset
  limit : Option Float
  level : Option Float
  method : Option MeanMethod
  width : Option Float

/-- Analyze a series of readings. -/
structure AnalyzeOptions where
  input : String
  field : Nat
  skip : Option Nat
  overrides : Overrides
  config : Option String
  format : Format

/-- Score the model of a summary against rounds. -/
structure FitErrorOptions where
  summary : String
  rounds : String
  naiveRate : Option Float
  format : Format

inductive Invocation where
  | analyze (options : AnalyzeOptions)
  | fitError (options : FitErrorOptions)

/-- What the arguments ask for. -/
inductive Request where
  | misused
  | shows (what : Display)
  | run (loudness : Loudness) (invocation : Invocation)

/-! ## Values -/

/-- A count of sixty-four bits; a plus sign is allowed. -/
def count? (text : String) : Option Nat :=
  let ds := match text.toList with
    | '+' :: rest => rest
    | cs => cs
  if ds.isEmpty ∨ ¬ ds.all Char.isDigit then none
  else
    let n := Decimal.digitsValue ds
    if n < 18446744073709551616 then some n else none

/-- A path, which is not empty. -/
def path? (text : String) : Option String := if text.isEmpty then none else some text

/-- Fill an option once, with a value that can be read. -/
def fill {β : Type} (old : Option β) (read : String → Option β) (text : String) : Option (Option β) :=
  match old with
  | some _ => none
  | none => (read text).map some

/-- Turn a switch on once. -/
def turnOn (old : Bool) : Option Bool := if old then none else some true

/-! ## Switches that every command has -/

namespace Loudness

def standard : Loudness := ⟨false, false⟩

def switch? (name : String) : Option (Loudness → Option Loudness) :=
  match name with
  | "verbose" => some fun l => (turnOn l.verbose).map fun b => { l with verbose := b }
  | "quiet" => some fun l => (turnOn l.quiet).map fun b => { l with quiet := b }
  | _ => none

/-- The two switches exclude each other. -/
def isClear (l : Loudness) : Bool := !(l.verbose && l.quiet)

/-- The switches before and after the name of the command together. -/
def join (a b : Loudness) : Loudness := ⟨a.verbose || b.verbose, a.quiet || b.quiet⟩

end Loudness

def help? (name : String) : Option Display := if name = "help" then some .help else none

/-! ## The command `analyze` -/

/-- The options of `analyze` while they are read. -/
structure AnalyzeDraft where
  loudness : Loudness
  input : Option String
  field : Option Nat
  skip : Option Nat
  overrides : Overrides
  config : Option String
  format : Option Format

namespace AnalyzeDraft

def empty : AnalyzeDraft := ⟨.standard, none, none, none, ⟨none, none, none, none, none⟩, none, none⟩

/-- The setters of the options that override the configuration. -/
def override? (name : String) : Option (Overrides → String → Option Overrides) :=
  match name with
  | "mean-method" => some fun o v => (fill o.method MeanMethod.ofName? v).map fun x => { o with method := x }
  | "preset" => some fun o v => (fill o.preset Preset.ofName? v).map fun x => { o with preset := x }
  | "ac" => some fun o v => (fill o.limit Decimal.readNumber? v).map fun x => { o with limit := x }
  | "confidence-level" => some fun o v => (fill o.level Decimal.readNumber? v).map fun x => { o with level := x }
  | "ci-width" => some fun o v => (fill o.width Decimal.readNumber? v).map fun x => { o with width := x }
  | _ => none

/-- The setters of the options with a value. -/
def valued? (name : String) : Option (AnalyzeDraft → String → Option AnalyzeDraft) :=
  match name with
  | "field" => some fun d v => (fill d.field count? v).map fun x => { d with field := x }
  | "ignore-lines" => some fun d v => (fill d.skip count? v).map fun x => { d with skip := x }
  | "config" => some fun d v => (fill d.config path? v).map fun x => { d with config := x }
  | "format" => some fun d v => (fill d.format Format.ofName? v).map fun x => { d with format := x }
  | name => (override? name).map fun set d v => (set d.overrides v).map fun o => { d with overrides := o }

def grammar : Grammar AnalyzeDraft where
  long? c := [('v', "verbose"), ('q', "quiet"), ('h', "help"), ('f', "field"), ('c', "config")].lookup c
  display? := help?
  switch? name := (Loudness.switch? name).map fun f d => (f d.loudness).map fun l => { d with loudness := l }
  valued? := valued?
  positional d arg := (fill d.input path? arg).map fun x => { d with input := x }
  hasCommands := false

/-- The finished options; an input has to be named. -/
def finish (d : AnalyzeDraft) : Option Invocation :=
  d.input.map fun input => .analyze {
    input := input
    field := d.field.getD 0
    skip := d.skip
    overrides := d.overrides
    config := d.config
    format := d.format.getD .text }

end AnalyzeDraft

/-! ## The command `fit-error` -/

/-- The options of `fit-error` while they are read. -/
structure FitErrorDraft where
  loudness : Loudness
  summary : Option String
  rounds : Option String
  naiveRate : Option Float
  format : Option Format

namespace FitErrorDraft

def empty : FitErrorDraft := ⟨.standard, none, none, none, none⟩

/-- The positional arguments are taken in order. -/
def takePositional (d : FitErrorDraft) (arg : String) : Option FitErrorDraft :=
  match d.summary, d.rounds with
  | none, _ => (path? arg).map fun x => { d with summary := some x }
  | some _, none => (path? arg).map fun x => { d with rounds := some x }
  | some _, some _ => (fill d.naiveRate Decimal.readNumber? arg).map fun x => { d with naiveRate := x }

def grammar : Grammar FitErrorDraft where
  long? c := [('v', "verbose"), ('q', "quiet"), ('h', "help")].lookup c
  display? := help?
  switch? name := (Loudness.switch? name).map fun f d => (f d.loudness).map fun l => { d with loudness := l }
  valued? name :=
    if name = "format" then some fun d v => (fill d.format Format.ofName? v).map fun x => { d with format := x }
    else none
  positional := takePositional
  hasCommands := false

/-- The finished options; both files have to be named. -/
def finish (d : FitErrorDraft) : Option Invocation :=
  match d.summary, d.rounds with
  | some summary, some rounds => some (.fitError {
      summary := summary
      rounds := rounds
      naiveRate := d.naiveRate
      format := d.format.getD .text })
  | _, _ => none

end FitErrorDraft

/-! ## The whole command line -/

/-- What stands before the name of the command. -/
def outerGrammar : Grammar Loudness where
  long? c := [('v', "verbose"), ('q', "quiet"), ('h', "help"), ('V', "version")].lookup c
  display? name := if name = "version" then some .version else help? name
  switch? := Loudness.switch?
  valued? _ := none
  positional _ _ := none
  hasCommands := true

/-- The arguments of one command, read by its grammar. -/
def readCommand {σ : Type} (g : Grammar σ) (empty : σ) (loudness : σ → Loudness) (finish : σ → Option Invocation)
    (outer : Loudness) (args : List String) : Request :=
  match g.read true args empty with
  | .misused => .misused
  | .shows what => .shows what
  | .done d _ =>
    match finish d with
    | some invocation =>
      if (loudness d).isClear && outer.isClear then .run (outer.join (loudness d)) invocation else .misused
    | none => .misused

/-- Help may be asked for about one command. -/
def readHelp : List String → Request
  | [] => .shows .help
  | [topic] => if ["analyze", "fit-error", "help"].contains topic then .shows .help else .misused
  | _ => .misused

/-- What a command line asks for. -/
def Request.ofArgs (args : List String) : Request :=
  match outerGrammar.read true args .standard with
  | .misused => .misused
  | .shows what => .shows what
  | .done _ none => .misused
  | .done outer (some (name, rest)) =>
    match name with
    | "analyze" => readCommand AnalyzeDraft.grammar .empty (·.loudness) AnalyzeDraft.finish outer rest
    | "fit-error" => readCommand FitErrorDraft.grammar .empty (·.loudness) FitErrorDraft.finish outer rest
    | "help" => readHelp rest
    | _ => .misused

end BatchMeans.Command
