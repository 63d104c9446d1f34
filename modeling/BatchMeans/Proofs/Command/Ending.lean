import BatchMeans.Proofs.Analysis.Coherence
import BatchMeans.Proofs.Command.Reports
import BatchMeans.Proofs.Table.SummaryRow

/- How a run of a command ends.

   Both commands come to a result or to a failure before anything is printed
   (`AnalyzeOptions.analysis`, `FitErrorOptions.score`), and neither looks at the
   format on the way; the format only picks the report. A run of the analysis
   then ends in one of three ways (`Ending`): with a report, with a failure and
   no output, or with a report and the failure that no block size was found. -/
namespace BatchMeans.Command
open Table Throughput

variable {p : Report.Precision} {inputs : Inputs} {o : AnalyzeOptions}
  {s : Settings Float} {xs : List Float} {a : Analysis Float}

/-! ## What a run analyzes -/

theorem loaded_eq_ok_iff {β : Type} {r : Checked Float β} {b : β} :
    Checked.loaded r = .ok b ↔ r = .ok b := mapError_eq_ok_iff

/-- A run has its settings and its readings, and they have an analysis. -/
structure Analyzes (o : AnalyzeOptions) (inputs : Inputs) (s : Settings Float) (xs : List Float)
    (a : Analysis Float) : Prop where
  settings : o.settings inputs = .ok s
  series : o.series inputs = .ok xs
  analysis : Series.analyze StudentT.doubleLaw xs s = .ok a

namespace Analyzes

theorem coherent (h : Analyzes o inputs s xs a) : Series.Coherent xs s a := by
  obtain ⟨_, haccepts, ha⟩ := Series.analyze_eq_ok_iff.mp h.analysis
  exact ha.coherent haccepts

theorem nonempty (h : Analyzes o inputs s xs a) : xs ≠ [] :=
  (Series.analyze_eq_ok_iff.mp h.analysis).2.1.nonempty

theorem run (h : Analyzes o inputs s xs a) :
    runAnalyze p o inputs = ⟨analysisReport p o.format s a, sizeFailure s a⟩ := by
  have hanalysis := loaded_eq_ok_iff.mpr h.analysis
  simp [runAnalyze, AnalyzeOptions.analysis, h.settings, h.series, h.nonempty, hanalysis,
    Outcome.ofResult]

end Analyzes

/-- A run either analyzes its readings or has no output. -/
theorem analyzes_or_refused (p : Report.Precision) (o : AnalyzeOptions) (inputs : Inputs) :
    (∃ s xs a, Analyzes o inputs s xs a) ∨ ∃ e, runAnalyze p o inputs = ⟨"", some e⟩ := by
  unfold runAnalyze
  cases hr : o.analysis inputs with
  | error e => exact .inr ⟨e, rfl⟩
  | ok r =>
    obtain ⟨s, hs, xs, hxs, hrest⟩ : ∃ s, o.settings inputs = .ok s ∧ ∃ xs,
        o.series inputs = .ok xs ∧ _ := by
      simpa only [AnalyzeOptions.analysis, bind_eq_ok_iff] using hr
    split at hrest
    · cases hrest
    · obtain ⟨a, ha, _⟩ := bind_eq_ok_iff.mp hrest
      exact .inl ⟨s, xs, a, hs, hxs, loaded_eq_ok_iff.mp ha⟩

/-! ## Endings -/

theorem exitStatus_eq_zero {out : Outcome} (h : out.failure = none) : out.exitStatus = 0 := by
  simp [Outcome.exitStatus, h]

theorem exitStatus_eq_one {out : Outcome} {e : Failure} (h : out.failure = some e) :
    out.exitStatus = 1 := by
  simp [Outcome.exitStatus, h]

/-- How a run of the analysis ends. -/
inductive Ending where
  | reported
  | refused
  | unsized

/-- The message of a run that found no block size. -/
def noBlockSizeMessage (limit : Float) : String :=
  "Cannot find a subsession size with autocorrelation within " ++ Report.plain limit ++
    "; more readings are needed"

/-- What each ending shows. A report tells all figures of the analysis, and the interval is among them when there are
    two readings or more. -/
def Ends (p : Report.Precision) (o : AnalyzeOptions) (inputs : Inputs) : Ending → Prop
  | .reported => (runAnalyze p o inputs).exitStatus = 0 ∧ ∃ s xs a, Analyzes o inputs s xs a ∧
    (runAnalyze p o inputs).output = layout (told (analysisFigures p s a o.format)) o.format ∧
    (xs.length = 1 ∨ ∃ q i, a.blockSize = some q ∧ a.interval = some i ∧
      States p i o.format (runAnalyze p o inputs).output)
  | .refused => (runAnalyze p o inputs).exitStatus = 1 ∧ (runAnalyze p o inputs).output = ""
  | .unsized => (runAnalyze p o inputs).exitStatus = 1 ∧ ∃ s xs a, Analyzes o inputs s xs a ∧
    (runAnalyze p o inputs).output = layout (told (analysisFigures p s a o.format)) o.format ∧
    ∃ e, (runAnalyze p o inputs).failure = some e ∧
      ∀ words, e.message words = noBlockSizeMessage s.limit

/-- The readings have an analysis, but no size of their blocks qualifies. -/
def NoSizeQualifies (o : AnalyzeOptions) (inputs : Inputs) : Prop :=
  ∃ s xs a, Analyzes o inputs s xs a ∧ 2 ≤ xs.length ∧
    ∀ q, ¬ Series.Qualifies xs a.mean s.method s.limit q

theorem Analyzes.sizeFailure_eq (h : Analyzes o inputs s xs a) :
    (2 ≤ xs.length ∧ a.blockSize = none ∧ sizeFailure s a = some (.noBlockSize s.limit)) ∨
    ((xs.length = 1 ∨ ∃ q, a.blockSize = some q) ∧ sizeFailure s a = none) := by
  have hpos : 0 < xs.length := List.length_pos_iff.mpr h.nonempty
  unfold sizeFailure
  rw [h.coherent.sampleSize]
  cases hq : a.blockSize with
  | some q => exact .inr ⟨.inr ⟨q, rfl⟩, by simp⟩
  | none =>
    by_cases hn : 1 < xs.length
    · exact .inl ⟨hn, rfl, by simp [hn]⟩
    · exact .inr ⟨.inl (by omega), by simp [hn]⟩

theorem ends_refused {e : Failure} (h : runAnalyze p o inputs = ⟨"", some e⟩) :
    Ends p o inputs .refused := by
  rw [Ends, h]
  exact ⟨rfl, rfl⟩

theorem Analyzes.ends_reported (h : Analyzes o inputs s xs a) (hfail : sizeFailure s a = none)
    (hsize : xs.length = 1 ∨ ∃ q, a.blockSize = some q) : Ends p o inputs .reported := by
  rw [Ends, h.run]
  refine ⟨exitStatus_eq_zero hfail, s, xs, a, h, analysisReport_eq p o.format s a, ?_⟩
  rcases hsize with hone | ⟨q, hq⟩
  · exact .inl hone
  · obtain ⟨i, hi, _⟩ := h.coherent.interval q hq
    exact .inr ⟨q, i, hq, hi, analysisReport_states o.format hi⟩

theorem Analyzes.ends_unsized (h : Analyzes o inputs s xs a)
    (hfail : sizeFailure s a = some (.noBlockSize s.limit)) : Ends p o inputs .unsized := by
  rw [Ends, h.run]
  exact ⟨exitStatus_eq_one hfail, s, xs, a, h, analysisReport_eq p o.format s a, _, hfail, fun _ => rfl⟩

theorem exists_ends (p : Report.Precision) (o : AnalyzeOptions) (inputs : Inputs) :
    ∃ e, Ends p o inputs e := by
  rcases analyzes_or_refused p o inputs with ⟨s, xs, a, h⟩ | ⟨e, he⟩
  · rcases h.sizeFailure_eq with ⟨_, _, hfail⟩ | ⟨hsize, hfail⟩
    · exact ⟨_, h.ends_unsized hfail⟩
    · exact ⟨_, h.ends_reported hfail hsize⟩
  · exact ⟨_, ends_refused he⟩

theorem Ends.exitStatus_eq_zero_iff {e : Ending} (h : Ends p o inputs e) :
    (runAnalyze p o inputs).exitStatus = 0 ↔ e = .reported := by
  cases e with
  | reported => exact ⟨fun _ => rfl, fun _ => h.1⟩
  | refused | unsized => simp [h.1]

theorem Ends.output_eq_empty_iff {e : Ending} (h : Ends p o inputs e) :
    (runAnalyze p o inputs).output = "" ↔ e = .refused := by
  cases e with
  | refused => exact ⟨fun _ => rfl, fun _ => h.2⟩
  | reported | unsized =>
    obtain ⟨_, s, xs, a, _, hreport, _⟩ := h
    rw [hreport, ← analysisReport_eq]
    simp [analysisReport_ne_empty]

/-- A success is told from a failure by its status, and the two failures by their output. -/
theorem Ends.unique {e e' : Ending} (h : Ends p o inputs e) (h' : Ends p o inputs e') : e = e' := by
  have hreported := h.exitStatus_eq_zero_iff.symm.trans h'.exitStatus_eq_zero_iff
  have hrefused := h.output_eq_empty_iff.symm.trans h'.output_eq_empty_iff
  cases e <;> cases e' <;> simp_all

theorem ends_unsized_iff : Ends p o inputs .unsized ↔ NoSizeQualifies o inputs := by
  constructor
  · rintro ⟨hstatus, s, xs, a, h, _⟩
    rcases h.sizeFailure_eq with ⟨hn, hnone, _⟩ | ⟨_, hfail⟩
    · exact ⟨s, xs, a, h, hn,
        (h.coherent.blockSize_eq_none_iff.mp hnone).resolve_left (by omega)⟩
    · rw [h.run, exitStatus_eq_zero hfail] at hstatus
      cases hstatus
  · rintro ⟨s, xs, a, h, hn, hall⟩
    have hnone := h.coherent.blockSize_eq_none_iff.mpr (.inr hall)
    rcases h.sizeFailure_eq with ⟨_, _, hfail⟩ | ⟨hone | ⟨q, hq⟩, _⟩
    · exact h.ends_unsized hfail
    · omega
    · rw [hnone] at hq
      cases hq

/-! ## Both commands -/

theorem le_wholeBlocks (n : Nat) : n ≤ wholeBlocks n := by
  unfold wholeBlocks blockBytes
  omega

/-- A summary and rounds that both come from the standard input share it: the blocks that the rounds are not given
    hold the whole summary. -/
theorem stdin_eq_append_afterSummary (inputs : Inputs) :
    ∃ taken, inputs.stdin = taken ++ (inputs.afterSummary "-").stdin ∧
      readSummary taken = readSummary inputs.stdin :=
  ⟨inputs.stdin.take (wholeBlocks (summaryBytes inputs.stdin)), (List.take_append_drop _ _).symm,
    readSummary_take (le_wholeBlocks _)⟩

/-- How a run of the scoring ends: without output, or with all figures of the score. -/
def ScoreEnds (o : FitErrorOptions) (inputs : Inputs) : Loaded (Score Float) → Prop
  | .error e => (runFitError o inputs).exitStatus = 1 ∧ (runFitError o inputs).failure = some e ∧
    (runFitError o inputs).output = ""
  | .ok score => (runFitError o inputs).exitStatus = 0 ∧ (runFitError o inputs).output ≠ "" ∧
    (runFitError o inputs).output = layout (scoreFigures score o.format) o.format

theorem runFitError_ends (o : FitErrorOptions) (inputs : Inputs) : ScoreEnds o inputs (o.score inputs) := by
  have hrun : runFitError o inputs = Outcome.ofResult _ (o.score inputs) := rfl
  cases hscore : o.score inputs with
  | error e =>
    rw [hscore] at hrun
    rw [ScoreEnds, hrun]
    exact ⟨rfl, rfl, rfl⟩
  | ok score =>
    rw [hscore, Outcome.ofResult, scoreReport_eq] at hrun
    rw [ScoreEnds, hrun]
    exact ⟨rfl, scoreReport_eq o.format score ▸ scoreReport_ne_empty o.format score, rfl⟩

/-- The same command with its report in a format. -/
def Invocation.withFormat (f : Format) : Invocation → Invocation
  | .analyze o => .analyze { o with format := f }
  | .fitError o => .fitError { o with format := f }

theorem Outcome.failure_ofResult_congr {β : Type} {print print' : β → Outcome}
    (h : ∀ b, (print b).failure = (print' b).failure) (r : Loaded β) :
    (Outcome.ofResult print r).failure = (Outcome.ofResult print' r).failure := by
  cases r with
  | error e => rfl
  | ok b => exact h b

/-- The format only picks the report, so it has no part in a failure. -/
theorem failure_withFormat (p : Report.Precision) (inputs : Inputs) (i : Invocation) (f g : Format) :
    ((i.withFormat f).run p inputs).failure = ((i.withFormat g).run p inputs).failure := by
  cases i with
  | analyze o =>
    simp only [Invocation.withFormat, Invocation.run, runAnalyze]
    refine Outcome.failure_ofResult_congr (fun _ => ?_) (o.analysis inputs)
    rfl
  | fitError o =>
    simp only [Invocation.withFormat, Invocation.run, runFitError]
    refine Outcome.failure_ofResult_congr (fun _ => ?_) (o.score inputs)
    rfl

def sampleInputs : Inputs where
  file path := (([("two.csv", "1\n2\n"), ("equal.csv", "3\n3\n"),
    ("summary.csv", "wps_harmonic_mean,wps_alpha,wps_v\n2e9,0.000001,2.5e9\n"),
    ("rounds.csv", "work_amount,round_duration\n100,1040\n200,1085\n")] : List (String × String)).lookup path).elim
      .missing fun text => .content text.toUTF8.toList
  stdin := []

def sampleOptions (input : String) (f : Format) : AnalyzeOptions where
  input := input
  field := 0
  skip := none
  overrides := ⟨none, none, some 1e-17, none, some 0.5⟩
  config := none
  format := f

def sampleScoring (f : Format) : FitErrorOptions := ⟨"summary.csv", "rounds.csv", none, f⟩

end BatchMeans.Command
