import BatchMeans.Arith.Double
import BatchMeans.Decimal.Notation
import BatchMeans.Fault
import BatchMeans.Text.Quoted

/- Why data from outside could not be used.

   A failure is a cause together with the steps that were under way, the
   outermost first. Its text joins them with colons. -/
namespace BatchMeans

/-- What is wrong with a source of data. -/
inductive DataFault where
  /-- A record is not valid UTF-8. -/
  | notUtf8
  /-- A record has more or fewer fields than the header. -/
  | unequalLengths
  /-- A column is missing or repeated, or a field is not a number. Which one it is, and its position, are not kept. -/
  | undecodable
  /-- A text is not TOML, or a value has the wrong type. -/
  | badToml
  /-- A file is missing or cannot be read. -/
  | unreadable
deriving DecidableEq

/-- What a data fault is called where the reader's own words are wanted. -/
def DataFault.words : DataFault → String
  | notUtf8 => "record is not valid UTF-8"
  | unequalLengths => "record has a different number of fields than the header"
  | undecodable => "record does not hold the expected numbers"
  | badToml => "not a valid configuration"
  | unreadable => "cannot be read"

/-- A step during which something failed. -/
inductive Step where
  | readLine (line : Nat)
  | roundRow (row : Nat)
  | roundValues (row : Nat)
  | summaryRow
  | summaryModel
  | parseToml
  | settings
  | openFile (path : String)
  | readFile (path : String)
  | loadSeries (path : String)
  | loadSummary (path : String)
  | loadRounds (path : String)
deriving DecidableEq

def Step.message : Step → String
  | readLine n => s!"Failed to read line {n}"
  | roundRow n => s!"Malformed round record {n}"
  | roundValues n => s!"Invalid round record {n}"
  | summaryRow => "Malformed summary record"
  | summaryModel => "Invalid wps_alpha/wps_v in summary"
  | parseToml => "Failed to parse TOML"
  | settings => "Invalid analysis configuration"
  | openFile path => s!"Failed to open {path}"
  | readFile path => s!"Failed to read {path}"
  | loadSeries path => s!"Failed to load series from {path}"
  | loadSummary path => s!"Failed to load summary from {path}"
  | loadRounds path => s!"Failed to load rounds from {path}"

inductive Failure where
  | fault (cause : Fault Float)
  | data (cause : DataFault)
  /-- A record has no finite number in a field; its fields are kept. -/
  | noNumber (field line : Nat) (fields : List String)
  | noSummaryRow
  | limitOutOfRange (x : Float)
  | noReadings (path : String)
  | noBlockSize (limit : Float)
  | during (step : Step) (cause : Failure)

/-- The text of a failure, with data faults in the given words. -/
def Failure.message (words : DataFault → String) : Failure → String
  | fault cause => cause.message Decimal.NumberFormat.plain.write
  | data cause => words cause
  | noNumber field line fields =>
    let row := Text.quote (",".intercalate fields)
    s!"Failed to extract a number from field {field} in line {line}: {row}"
  | noSummaryRow => "Summary CSV has no data rows"
  | limitOutOfRange x =>
    s!"Invalid value for --ac: {Decimal.NumberFormat.plain.write x} (must be in (0, 1])"
  | noReadings path => s!"No readings found in {path}"
  | noBlockSize limit =>
    let text := Decimal.NumberFormat.plain.write limit
    s!"Cannot find a subsession size with autocorrelation within {text}; more readings are needed"
  | during step cause => step.message ++ ": " ++ cause.message words

/-- The result of using data from outside. -/
abbrev Loaded (β : Type) := Except Failure β

/-- A checked computation as a use of data. -/
def Checked.loaded {β : Type} (r : Checked Float β) : Loaded β := r.mapError Failure.fault

/-- Note the step that was under way, should it fail. -/
def Loaded.within {β : Type} (step : Step) (r : Loaded β) : Loaded β := r.mapError (Failure.during step)

end BatchMeans
