import BatchMeans.Command.Run

/- What the reports tell.

   A report tells figures by their names. `layout` says how: a figure has a line of
   its own in a text report, and is a member of an object in JSON.
   `analysisFigures` and `scoreFigures` say which figures there are, and what an
   analysis lacks has no value. The two reports of the commands are laid out in
   this way (`analysisReport_eq`, `scoreReport_eq`), so a report is complete: it
   tells every figure that has a value, once, and nothing else. -/
namespace BatchMeans.Command
open Throughput

/-! ## Layout -/

/-- An object whose closing brace stands after `blanks`, with a member a line. -/
def objectText (blanks : String) (members : List (String × String)) : String :=
  "\x7b\n" ++ ",\n".intercalate (members.map fun (name, value) => blanks ++ "  \"" ++ name ++ "\": " ++ value) ++
    "\n" ++ blanks ++ "\x7d"

/-- The report of figures with these names and values. -/
def layout (figures : List (String × String)) : Format → String
  | .text => String.join (figures.map fun (name, value) => name ++ " " ++ value ++ "\n")
  | .json => objectText "" figures ++ "\n"

/-- The figures that have a value. -/
def told (figures : List (String × Option String)) : List (String × String) :=
  figures.filterMap fun (name, value) => value.map (name, ·)

@[simp] theorem told_nil : told [] = [] := rfl

@[simp] theorem told_some (name value : String) (rest : List (String × Option String)) :
    told ((name, some value) :: rest) = (name, value) :: told rest := rfl

@[simp] theorem told_none (name : String) (rest : List (String × Option String)) :
    told ((name, none) :: rest) = told rest := rfl

/-! ## JSON as text -/

section Json
open Report Report.Json

@[simp] theorem indent_zero : indent 0 = "" := rfl

theorem indent_succ (depth : Nat) : indent (depth + 1) = indent depth ++ "  " := by
  have hblanks : List.replicate (2 * (depth + 1)) ' ' = List.replicate (2 * depth) ' ' ++ [' ', ' '] :=
    List.replicate_append_replicate.symm
  rw [indent, indent, hblanks, String.ofList_append]

@[simp] theorem write_null (depth : Nat) : Json.null.write depth = "null" := by
  rw [write]

@[simp] theorem write_number (depth : Nat) (text : String) : (Json.number text).write depth = text := by
  rw [write]

@[simp] theorem write_ofNat (depth n : Nat) : (ofNat n).write depth = toString n := write_number depth _

theorem writeMembers_eq (depth : Nat) (members : List (String × Json)) :
    writeMembers depth members = ",\n".intercalate (members.map fun (name, value) =>
      indent depth ++ "\"" ++ name ++ "\": " ++ value.write depth) := by
  induction members with
  | nil => simp [writeMembers]
  | cons m rest ih =>
    obtain ⟨name, value⟩ := m
    cases rest with
    | nil => simp [writeMembers]
    | cons m' rest =>
      rw [writeMembers, ih]
      simp [String.append_assoc]

/-- An object is written as its members, one a line. -/
theorem write_object (depth : Nat) (m : String × Json) (rest : List (String × Json)) :
    (Json.object (m :: rest)).write depth = objectText (indent depth)
      ((m :: rest).map fun (name, value) => (name, value.write (depth + 1))) := by
  rw [write, writeMembers_eq, objectText, List.map_map]
  simp only [Function.comp_def, indent_succ, String.append_assoc]
  rfl

end Json

/-! ## Figures -/

/-- The figures of an analysis. The interval is told by its width and its ends in a text report, and by its point,
    its half width and its level in JSON. -/
def analysisFigures (p : Report.Precision) (s : Settings Float) (a : Analysis Float) :
    Format → List (String × Option String)
  | .text => [
    ("sample_size", some (toString a.sampleSize)),
    ("mean", some (Report.plain a.mean)),
    ("optimal_subsession_size", some (a.blockSize.elim "none" toString)),
    ("CI", a.interval.map fun i => p.text (i.halfWidth * 2)),
    ("CI_lower", a.interval.map fun i => p.text (i.point - i.halfWidth)),
    ("CI_upper", a.interval.map fun i => p.text (i.point + i.halfWidth)),
    ("variance", a.variance.map Report.plain),
    ("subsession_autocorrelation_coefficient", a.coefficient.map Report.plain),
    ("required_subsession_count", a.required.map fun r => toString r.blockCount),
    ("required_reading_count", a.required.map fun r => toString r.readingCount),
    ("target_ci_width_met", s.width.map fun width => toString (a.interval.any (·.halfWidth * 2 ≤ width)))]
  | .json => [
    ("sample_size", some (toString a.sampleSize)),
    ("mean", some (Report.json a.mean)),
    ("optimal_subsession_size", some (a.blockSize.elim "null" toString)),
    ("confidence_interval", a.interval.map fun i => objectText "  " [
      ("point_estimate", Report.json i.point),
      ("half_width", p.json i.halfWidth),
      ("level", Report.json i.level)]),
    ("variance", a.variance.map Report.json),
    ("autocorrelation_coefficient", a.coefficient.map Report.json),
    ("required_sample_size", a.required.map fun r => objectText "  " [
      ("subsession_size", toString r.blockSize),
      ("subsession_count", toString r.blockCount),
      ("reading_count", toString r.readingCount)])]

/-- The figures of an interval among those of its analysis. -/
def intervalFigures (p : Report.Precision) (i : Interval Float) : Format → List (String × String)
  | .text => [
    ("CI", p.text (i.halfWidth * 2)),
    ("CI_lower", p.text (i.point - i.halfWidth)),
    ("CI_upper", p.text (i.point + i.halfWidth))]
  | .json => [("confidence_interval", objectText "  " [
      ("point_estimate", Report.json i.point),
      ("half_width", p.json i.halfWidth),
      ("level", Report.json i.level)])]

/-- A report in a format states an interval. -/
def States (p : Report.Precision) (i : Interval Float) (f : Format) (report : String) : Prop :=
  ∃ before after, report = layout (before ++ intervalFigures p i f ++ after) f

/-- The figures of a score. Rates are told per second in a text report, and per nanosecond in JSON. -/
def scoreFigures (s : Score Float) : Format → List (String × String)
  | .text => [
    ("rounds:", toString s.rounds),
    ("naive_v:", Report.plain (s.naiveRate * 1000000000) ++ " work/s"),
    ("alpha:", Report.plain s.model.overhead ++ " ns"),
    ("v:", Report.plain (s.model.rate * 1000000000) ++ " work/s"),
    ("mean calculated from round data:", Report.plain (s.meanRate * 1000000000) ++ " work/s"),
    ("naive model error:", Report.plain s.naiveError.sum ++ " ns, " ++ Report.plain s.naiveError.percent ++ "%"),
    ("fitted model error:", Report.plain s.modelError.sum ++ " ns, " ++ Report.plain s.modelError.percent ++ "%")]
  | .json => [
    ("rounds", toString s.rounds),
    ("total_work_amount", Report.json s.totalWork),
    ("total_duration", Report.json s.totalDuration),
    ("mean_observed_rate", Report.json s.meanRate),
    ("model", objectText "  " [("alpha", Report.json s.model.overhead), ("v", Report.json s.model.rate)]),
    ("model_error", objectText "  " [
      ("sum_absolute_error", Report.json s.modelError.sum),
      ("percent_of_duration", Report.json s.modelError.percent)]),
    ("naive_v", Report.json s.naiveRate),
    ("naive_error", objectText "  " [
      ("sum_absolute_error", Report.json s.naiveError.sum),
      ("percent_of_duration", Report.json s.naiveError.percent)])]

/-! ## The reports -/

theorem layout_text (figures : List (String × String)) :
    layout figures .text = Report.unlines (figures.map fun (name, value) => name ++ " " ++ value) := by
  simp only [layout, Report.unlines, List.map_map, Function.comp_def]

theorem unlines_append (ls ms : List String) :
    Report.unlines (ls ++ ms) = Report.unlines ls ++ Report.unlines ms := by
  simp [Report.unlines]

theorem meetsWidth_eq (a : Analysis Float) (width : Float) :
    a.meetsWidth width = a.interval.any (·.halfWidth * 2 ≤ width) := by
  obtain ⟨n, mean, _ | b⟩ := a <;> rfl

theorem widthLine_eq (met : Bool) :
    Report.widthLine met = Report.unlines ["target_ci_width_met " ++ toString met] := by
  cases met <;> rfl

/-- The lines of a text report: the last one tells whether a width is met, if one is aimed at. -/
theorem analysisReport_lines (p : Report.Precision) (s : Settings Float) (a : Analysis Float) :
    analysisReport p .text s a = Report.analysisText p a ++ Report.unlines (s.width.toList.map fun width =>
      "target_ci_width_met " ++ toString (a.interval.any (·.halfWidth * 2 ≤ width))) := by
  unfold analysisReport
  cases s.width with
  | none => simp [Report.unlines]
  | some width => simp only [widthLine_eq, meetsWidth_eq, Option.toList_some, List.map_cons, List.map_nil]

theorem width_eq (i : Interval Float) : i.width = i.halfWidth * 2 := rfl

theorem lower_eq (i : Interval Float) : i.lower = i.point - i.halfWidth := rfl

theorem upper_eq (i : Interval Float) : i.upper = i.point + i.halfWidth := rfl

theorem analysisReport_eq (p : Report.Precision) (f : Format) (s : Settings Float) (a : Analysis Float) :
    analysisReport p f s a = layout (told (analysisFigures p s a f)) f := by
  obtain ⟨n, mean, blocks⟩ := a
  cases f with
  | text =>
    rw [analysisReport_lines, Report.analysisText, ← unlines_append, layout_text]
    apply congrArg Report.unlines
    -- What the analysis lacks, and a width that is not aimed at, have no line on either side.
    rcases blocks with _ | ⟨q, i, variance, _ | c, _ | r⟩ <;> cases hw : s.width <;>
      simp [analysisFigures, Report.blockLines, Report.intervalLines, Report.sampleSizeLines,
        Report.blockSizeText, Analysis.blockSize, Analysis.interval, Analysis.variance,
        Analysis.coefficient, Analysis.required, width_eq, lower_eq, upper_eq, hw]
  | json =>
    rcases blocks with _ | ⟨q, i, variance, _ | c, _ | r⟩ <;>
      simp [analysisReport, layout, analysisFigures, Report.analysisJson, Report.blockMembers, Report.intervalJson,
        Report.sampleSizeJson, write_object, indent_succ, Analysis.blockSize, Analysis.interval, Analysis.variance,
        Analysis.coefficient, Analysis.required]

theorem analysisReport_states {p : Report.Precision} {s : Settings Float} {a : Analysis Float} {i : Interval Float}
    (f : Format) (hi : a.interval = some i) : States p i f (analysisReport p f s a) := by
  rw [analysisReport_eq]
  cases f with
  | text =>
    simp only [analysisFigures, hi, Option.map_some, told_some]
    exact ⟨[_, _, _], _, rfl⟩
  | json =>
    simp only [analysisFigures, hi, Option.map_some, told_some]
    exact ⟨[_, _, _], _, rfl⟩

/-- A report of at least one figure is a text. -/
theorem layout_cons_ne_empty (figure : String × String) (rest : List (String × String)) (f : Format) :
    layout (figure :: rest) f ≠ "" := by
  cases f <;> simp [layout, objectText]

theorem analysisReport_ne_empty (p : Report.Precision) (f : Format) (s : Settings Float) (a : Analysis Float) :
    analysisReport p f s a ≠ "" := by
  rw [analysisReport_eq]
  cases f <;> exact layout_cons_ne_empty _ _ _

theorem second_eq : (RateModel.second : Float) = 1000000000 := rfl

theorem scoreReport_eq (f : Format) (s : Score Float) : scoreReport f s = layout (scoreFigures s f) f := by
  cases f with
  | text =>
    unfold scoreReport Report.scoreText layout scoreFigures Report.errorTotalText RateModel.ratePerSecond
    rw [second_eq]
    -- How a number is written plays no part.
    generalize Report.plain = plain
    apply String.toList_inj.mp
    simp
  | json =>
    simp [scoreReport, layout, scoreFigures, Report.scoreJson, Report.modelJson, Report.errorTotalJson,
      write_object, indent_succ]

theorem scoreReport_ne_empty (f : Format) (s : Score Float) : scoreReport f s ≠ "" := by
  rw [scoreReport_eq]
  cases f <;> exact layout_cons_ne_empty _ _ _

end BatchMeans.Command
