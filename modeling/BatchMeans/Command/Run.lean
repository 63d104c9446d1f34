import BatchMeans.Analysis.SettingsFile
import BatchMeans.Command.Invocation
import BatchMeans.Report.AnalysisReport
import BatchMeans.Report.ScoreReport
import BatchMeans.StudentT.Double
import BatchMeans.Table.RoundRows
import BatchMeans.Table.SeriesColumn
import BatchMeans.Table.SummaryRow
import BatchMeans.Throughput.Score

/- Running a command.

   A run is a function of the invocation, the files and the standard input. What it prints is kept apart from why it
   failed, because an analysis without a block size prints its report and fails all the same. -/
namespace BatchMeans.Command
open Table Throughput

/-- What a name stands for. A source is read as a whole or not at all. -/
inductive Source where
  | missing
  /-- It can be opened but not read, as a directory. -/
  | unreadable
  | content (bytes : List UInt8)

/-- Everything a run can read. -/
structure Inputs where
  file : String → Source
  stdin : List UInt8

/-- What a run prints, and why it failed if it did. -/
structure Outcome where
  output : String
  failure : Option Failure

namespace Outcome

def exitStatus (o : Outcome) : Nat := if o.failure.isSome then 1 else 0

/-- A run fails without output, or comes to a result and prints it. -/
def ofResult {β : Type} (print : β → Outcome) : Loaded β → Outcome
  | .ok b => print b
  | .error e => ⟨"", some e⟩

end Outcome

/-! ## Reading -/

/-- Open an input: a dash is the standard input, anything else a file. The content is `none` when it cannot be
    read. -/
def openInput (inputs : Inputs) (path : String) : Loaded (Option (List UInt8)) :=
  if path = "-" then .ok (some inputs.stdin)
  else match inputs.file path with
    | .missing => .error (.during (.openFile path) (.data .unreadable))
    | .unreadable => .ok none
    | .content bytes => .ok (some bytes)

/-- The bytes of a table. One that cannot be read has neither a header nor rows: what is wrong with a header is
    not told, and nothing is read after it. -/
def tableBytes (inputs : Inputs) (path : String) : Loaded (List UInt8) := do
  let opened ← openInput inputs path
  return opened.getD []

/-- The standard input is taken in blocks of this many bytes; only its last block may be shorter. -/
def blockBytes : Nat := 8192

/-- The blocks that hold the first `n` bytes, in bytes. -/
def wholeBlocks (n : Nat) : Nat := (n + (blockBytes - 1)) / blockBytes * blockBytes

/-- The inputs that are left after a summary has been read from one. A reader of the standard input keeps the
    blocks that it has taken, and takes no block beyond the one in which the first row ends. -/
def Inputs.afterSummary (inputs : Inputs) (path : String) : Inputs :=
  if path = "-" then { inputs with stdin := inputs.stdin.drop (wholeBlocks (summaryBytes inputs.stdin)) }
  else inputs

/-- The settings in a file, which holds UTF-8 text. -/
def readSettings (inputs : Inputs) (path : String) : Loaded (Settings Float) :=
  let unreadable : Loaded (Settings Float) := .error (.during (.readFile path) (.data .unreadable))
  match inputs.file path with
  | .content bytes => match String.fromUTF8? ⟨bytes.toArray⟩ with
    | some text => Settings.ofText text
    | none => unreadable
  | _ => unreadable

/-! ## Settings -/

/-- The autocorrelation limit: the option, then the preset, then the configuration. -/
def Overrides.chooseLimit (o : Overrides) (base : Float) : Loaded Float :=
  match o.limit with
  | some x => if 0 < x ∧ x ≤ 1 then .ok x else .error (.limitOutOfRange x)
  | none => .ok (match o.preset with
    | some preset => preset.limit
    | none => base)

/-- The settings with each override in place of what it overrides. -/
def Overrides.apply (o : Overrides) (base : Settings Float) : Loaded (Settings Float) := do
  let limit ← o.chooseLimit base.limit
  let settings : Settings Float := {
    level := o.level.getD base.level
    limit := limit
    method := o.method.getD base.method
    width := o.width <|> base.width }
  Loaded.within .settings (Checked.loaded settings.check)
  return settings

/-- The settings of a run: a configuration file or the standard, then the overrides. -/
def AnalyzeOptions.settings (o : AnalyzeOptions) (inputs : Inputs) : Loaded (Settings Float) := do
  let base ← match o.config with
    | some path => readSettings inputs path
    | none => .ok .standard
  o.overrides.apply base

/-! ## The commands -/

/-- The report of an analysis in a format; a text report ends by telling whether the wanted width is met. -/
def analysisReport (p : Report.Precision) (format : Format) (s : Settings Float) (a : Analysis Float) : String :=
  match format with
  | .text => Report.analysisText p a ++ (match s.width with
    | some width => Report.widthLine (a.meetsWidth width)
    | none => "")
  | .json => (Report.analysisJson p a).write 0 ++ "\n"

/-- An analysis of two or more readings has to find a block size. -/
def sizeFailure (s : Settings Float) (a : Analysis Float) : Option Failure :=
  if a.blockSize.isNone ∧ 1 < a.sampleSize then some (.noBlockSize s.limit) else none

/-- The readings that an analysis is about. -/
def AnalyzeOptions.series (o : AnalyzeOptions) (inputs : Inputs) : Loaded (List Float) := do
  let opened ← openInput inputs o.input
  Loaded.within (.loadSeries o.input) (match opened with
    | some bytes => readSeries bytes o.field o.skip
    | none => .error (.during (.readLine 1) (.data .unreadable)))

/-- The settings and the analysis that a run reports. -/
def AnalyzeOptions.analysis (o : AnalyzeOptions) (inputs : Inputs) :
    Loaded (Settings Float × Analysis Float) := do
  let settings ← o.settings inputs
  let series ← o.series inputs
  if series.isEmpty then .error (.noReadings o.input)
  else
    let analysis ← Checked.loaded (Series.analyze StudentT.doubleLaw series settings)
    return (settings, analysis)

/-- Analyze the series of an input. -/
def runAnalyze (p : Report.Precision) (o : AnalyzeOptions) (inputs : Inputs) : Outcome :=
  .ofResult (fun (settings, analysis) =>
    ⟨analysisReport p o.format settings analysis, sizeFailure settings analysis⟩) (o.analysis inputs)

/-- The report of a score in a format. -/
def scoreReport (format : Format) (s : Score Float) : String :=
  match format with
  | .text => Report.scoreText s
  | .json => (Report.scoreJson s).write 0 ++ "\n"

/-- The score that a run reports: of the model of a summary, against rounds. The naive rate is given per second. -/
def FitErrorOptions.score (o : FitErrorOptions) (inputs : Inputs) : Loaded (Score Float) := do
  let bytes ← tableBytes inputs o.summary
  let summary ← Loaded.within (.loadSummary o.summary) (readSummary bytes)
  let bytes ← tableBytes (inputs.afterSummary o.summary) o.rounds
  let rounds ← Loaded.within (.loadRounds o.rounds) (readRounds bytes)
  let model ← summary.model
  let naiveRate := match o.naiveRate with
    | some v => v / RateModel.second
    | none => summary.naiveRate
  Checked.loaded (Round.scoreAgainst rounds model naiveRate)

/-- Score the model of a summary against rounds. -/
def runFitError (o : FitErrorOptions) (inputs : Inputs) : Outcome :=
  .ofResult (fun score => ⟨scoreReport o.format score, none⟩) (o.score inputs)

/-- Run a command. -/
def Invocation.run (p : Report.Precision) (inputs : Inputs) : Invocation → Outcome
  | .analyze options => runAnalyze p options inputs
  | .fitError options => runFitError options inputs

/-- The files that a command may read. -/
def Invocation.paths : Invocation → List String
  | .analyze options => options.config.toList ++ [options.input]
  | .fitError options => [options.summary, options.rounds]

end BatchMeans.Command
