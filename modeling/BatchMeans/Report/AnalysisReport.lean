import BatchMeans.Analysis.Analyze
import BatchMeans.Arith.Double
import BatchMeans.Report.Json
import BatchMeans.Report.Precision

/- The report of an analysis, as text (a name and a value a line) and as JSON. -/
namespace BatchMeans.Report

/-- Lines, each ended by a newline. -/
def unlines (lines : List String) : String := String.join (lines.map (· ++ "\n"))

/-- The lines about an interval: its width and its ends. -/
def intervalLines (p : Precision) (i : Interval Float) : List String :=
  ["CI " ++ p.text i.width, "CI_lower " ++ p.text i.lower, "CI_upper " ++ p.text i.upper]

/-- The lines about the size of a sample. -/
def sampleSizeLines (s : SampleSize) : List String :=
  ["required_subsession_count " ++ toString s.blockCount, "required_reading_count " ++ toString s.readingCount]

/-- The lines about the blocks; what an analysis lacks has no line. -/
def blockLines (p : Precision) (b : BlockAnalysis Float) : List String :=
  intervalLines p b.interval ++ ["variance " ++ plain b.variance] ++
    (b.coefficient.toList.map fun c => "subsession_autocorrelation_coefficient " ++ plain c) ++
    b.required.toList.flatMap sampleSizeLines

/-- The block size, or the word for none. -/
def blockSizeText (a : Analysis Float) : String :=
  match a.blockSize with
  | some q => toString q
  | none => "none"

/-- The text report of an analysis. -/
def analysisText (p : Precision) (a : Analysis Float) : String :=
  unlines (["sample_size " ++ toString a.sampleSize, "mean " ++ plain a.mean,
    "optimal_subsession_size " ++ blockSizeText a] ++ a.blocks.toList.flatMap (blockLines p))

/-- Whether the interval is narrow enough, as the last line of a text report. -/
def widthLine (met : Bool) : String :=
  unlines ["target_ci_width_met " ++ (if met then "true" else "false")]

def intervalJson (p : Precision) (i : Interval Float) : Json :=
  .object [("point_estimate", .number (json i.point)), ("half_width", .number (p.json i.halfWidth)),
    ("level", .number (json i.level))]

def sampleSizeJson (s : SampleSize) : Json :=
  .object [("subsession_size", .ofNat s.blockSize), ("subsession_count", .ofNat s.blockCount),
    ("reading_count", .ofNat s.readingCount)]

/-- The members about the blocks; what an analysis lacks has no member. -/
def blockMembers (p : Precision) (b : BlockAnalysis Float) : List (String × Json) :=
  [("confidence_interval", intervalJson p b.interval), ("variance", .number (json b.variance))] ++
    (b.coefficient.toList.map fun c => ("autocorrelation_coefficient", .number (json c))) ++
    b.required.toList.map fun s => ("required_sample_size", sampleSizeJson s)

/-- The JSON report of an analysis; a missing block size is null. -/
def analysisJson (p : Precision) (a : Analysis Float) : Json :=
  .object ([("sample_size", .ofNat a.sampleSize), ("mean", .number (json a.mean)),
    ("optimal_subsession_size", (a.blockSize.map Json.ofNat).getD .null)] ++
    a.blocks.toList.flatMap (blockMembers p))

end BatchMeans.Report
