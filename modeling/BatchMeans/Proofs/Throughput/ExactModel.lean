import BatchMeans.Proofs.Throughput.BlockFit

/- A model that explains the rounds is recovered from them.

   The mean work and the mean duration of a block lie on the line of the model
   (`through_blockPoints`), so the regression gives that line back and leaves
   no residual, however the rounds are filtered and grouped. The recovered model
   then predicts every round, the ones that were left out included. A single
   rate predicts them all only when there is no overhead, because two rounds of
   different work would otherwise have different rates (`naive_exact_iff`). -/
namespace BatchMeans.Throughput
open Series
variable {m : RateModel ℝ} {rs b : List (Round ℝ)} {o : FitOptions ℝ} {q : ℕ}

/-- Every round takes exactly as long as the model predicts. -/
def RateModel.Explains (m : RateModel ℝ) (rs : List (Round ℝ)) : Prop :=
  ∀ r ∈ rs, r.duration = m.duration r.work

theorem RateModel.duration_eq (m : RateModel ℝ) (work : ℝ) :
    m.duration work = m.overhead + work / m.rate := rfl

/-- Duration against work, as a line. -/
noncomputable def RateModel.line (m : RateModel ℝ) : Line ℝ := ⟨m.overhead, 1 / m.rate⟩

theorem RateModel.valueAt_line (m : RateModel ℝ) (work : ℝ) :
    m.line.valueAt work = m.duration work := by
  rw [Line.valueAt_eq, RateModel.duration_eq, RateModel.line, one_div_mul_eq_div]

theorem RateModel.Explains.through (h : m.Explains rs) : m.line.Through (roundPoints rs) := by
  intro p hp
  obtain ⟨r, hr, rfl⟩ := List.mem_map.mp hp
  rw [RateModel.valueAt_line]
  exact h r hr

/-! ## Blocks -/

/-- The means of a block of explained rounds lie on the line. -/
theorem RateModel.Explains.through_blockPoints (h : m.Explains rs) (hq : 1 ≤ q) :
    m.line.Through (blockPoints rs q) := by
  intro p hp
  obtain ⟨b, hb, rfl⟩ := List.mem_map.mp hp
  have hlen := length_of_mem_blocks hb
  have hblock : m.Explains b := fun r hr => h r (mem_of_mem_blocks hb hr)
  rw [blockMean_eq_roundPoints hlen]
  exact Line.reduce_ordinates hblock.through (roundPoints_ne_nil (by omega))

/-- Blocks of equal works have equal mean works. -/
theorem coincide_blockPoints (hq : 1 ≤ q) (h : Coincide (rs.map Round.work)) :
    Coincide (Line.abscissas (blockPoints rs q)) := by
  have hmean : ∀ b ∈ blocks q rs, ∀ r ∈ rs, (Round.blockMean q b).1 = r.work := by
    intro b hb r hr
    have hlen := length_of_mem_blocks hb
    have hne : b.map Round.work ≠ [] := by simpa using ne_nil_of_mem_blocks hq hb
    rw [blockMean_eq hlen]
    apply reduce_of_forall_eq .arithmetic hne
    intro w hw
    obtain ⟨r', hr', rfl⟩ := List.mem_map.mp hw
    exact h _ (List.mem_map_of_mem (mem_of_mem_blocks hb hr')) _ (List.mem_map_of_mem hr)
  intro v hv w hw
  simp only [Line.abscissas, List.map_map, List.mem_map, Function.comp_apply] at hv hw
  obtain ⟨b, hb, rfl⟩ := hv
  obtain ⟨b', hb', rfl⟩ := hw
  obtain ⟨r, hr⟩ := List.exists_mem_of_ne_nil b (ne_nil_of_mem_blocks hq hb)
  have hr' := mem_of_mem_blocks hb hr
  rw [hmean b hb r hr', hmean b' hb' r hr']

/-! ## The fit -/

/-- The fit is the model, without residuals or width. -/
structure Fit.Recovers (f : Fit ℝ) (m : RateModel ℝ) : Prop where
  overhead : f.overhead = m.overhead
  rate : f.rate = m.rate
  residual : f.residual = 0
  blockResidual : f.blockResidual = 0
  rateWidth : f.rateWidth = 0

theorem Fit.Recovers.model_eq_ok {f : Fit ℝ} (h : f.Recovers m) (hm : m.Valid) :
    f.model = .ok m := by
  rw [Fit.model, h.overhead, h.rate, RateModel.ofParts_eq_ok hm]

/-- Without residuals the slope has no error. -/
theorem blockFit_recovers (hline : Line.fittedLine (blockPoints rs q) = m.line)
    (hrounds : m.line.Through (roundPoints rs)) (hblocks : m.line.Through (blockPoints rs q)) :
    (blockFit rs q).Recovers m := by
  have hresidual := Line.residualSum_eq_zero_iff.mpr hrounds
  have hblockResidual := Line.residualSum_eq_zero_iff.mpr hblocks
  have hwidth : slopeHalfWidth (blockPoints rs q) = 0 := by
    rw [slopeHalfWidth, hline, hblockResidual]
    simp
  simp only [blockFit, hline, hwidth, hresidual, hblockResidual]
  refine ⟨rfl, one_div_one_div m.rate, rfl, rfl, ?_⟩
  rw [sub_zero, add_zero, sub_self, abs_zero]

/-- The fit to three blocks of explained rounds or more: the model, unless the mean works of the
    blocks are all equal. -/
theorem fitBlocks_of_explains (hm : m.Valid) (h : m.Explains rs) (hdiv : 3 ≤ rs.length / q) :
    (Coincide (Line.abscissas (blockPoints rs q)) ∧
      Round.fitBlocks rs q = .error (.undefined .equalAbscissas)) ∨
    (¬ Coincide (Line.abscissas (blockPoints rs q)) ∧
      ∃ f, Round.fitBlocks rs q = .ok f ∧ f.Recovers m) := by
  have hdiv' : 2 ≤ rs.length / q := by omega
  have hq : 1 ≤ q := (two_le_div_iff.mp hdiv').1
  have hlen : 2 ≤ (blockPoints rs q).length := by
    rw [length_blockPoints]
    exact hdiv'
  have hthrough := h.through_blockPoints hq
  by_cases hne : Coincide (Line.abscissas (blockPoints rs q))
  · refine .inl ⟨hne, ?_⟩
    rw [fitBlocks_eq hdiv, if_pos hne]
  · have hline := Line.fittedLine_of_through hthrough hlen hne
    have hslope : 0 < m.line.slope := one_div_pos.mpr ((Exact.isPositive_iff _).mp hm.rate)
    have hfitted : Line.fittedSlope (blockPoints rs q) = m.line.slope := congrArg Line.slope hline
    refine .inr ⟨hne, blockFit rs q, ?_, ?_⟩
    · rw [fitBlocks_eq hdiv, if_neg hne, if_pos (hfitted ▸ hslope)]
    · exact blockFit_recovers hline h.through hthrough

/-! ## The score -/

section Errors
variable {K : Type} [Field K] [LinearOrder K] [IsStrictOrderedRing K]

theorem absoluteError_eq_zero_iff (predict : K → K) (rs : List (Round K)) :
    Round.absoluteError predict rs = 0 ↔ ∀ r ∈ rs, predict r.work = r.duration := by
  rw [Round.absoluteError, Exact.sumBy_eq_zero_iff rs fun _ => abs_nonneg _]
  simp only [Exact.abs_eq, abs_eq_zero, sub_eq_zero]

theorem absoluteError_nonneg (predict : K → K) (rs : List (Round K)) :
    0 ≤ Round.absoluteError predict rs := Exact.sumBy_nonneg rs fun _ => abs_nonneg _

end Errors

/-- The single rate that the model is held against. -/
noncomputable def naiveRate (rs : List (Round ℝ)) : ℝ :=
  MeanMethod.harmonic.reduce (rs.map Round.rate)

theorem naiveRate_pos (hne : rs ≠ []) (hv : ∀ r ∈ rs, r.Valid) : 0 < naiveRate rs :=
  reduce_harmonic_pos (by simpa using hne) (rates_pos hv)

/-- Without overhead every round has the rate of the model. -/
theorem naiveRate_of_explains (hv : ∀ r ∈ rs, r.Valid) (h : m.Explains rs) (hne : rs ≠ [])
    (hzero : m.overhead = 0) : naiveRate rs = m.rate := by
  apply reduce_of_forall_eq .harmonic (by simpa using hne)
  intro x hx
  obtain ⟨r, hr, rfl⟩ := List.mem_map.mp hx
  have hwork : r.work ≠ 0 := ((Exact.isPositive_iff _).mp (hv r hr).work).ne'
  calc r.work / r.duration
      = r.work / (r.work / m.rate) := by rw [h r hr, RateModel.duration_eq, hzero, zero_add]
    _ = m.rate := div_div_cancel₀ hwork

/-- Rounds of different works take the time that a single rate predicts only where there is no
    overhead. -/
theorem naive_exact_iff (hv : ∀ r ∈ rs, r.Valid) (h : m.Explains rs)
    (hne : ¬ Coincide (rs.map Round.work)) :
    (∀ r ∈ rs, r.work / naiveRate rs = r.duration) ↔ m.overhead = 0 := by
  constructor
  · intro hexact
    by_contra hoverhead
    -- Each round then makes up the overhead by one factor, so all works are equal.
    have hscale : ∀ r ∈ rs, r.work * (1 / naiveRate rs - 1 / m.rate) = m.overhead := by
      intro r hr
      have hr' := (hexact r hr).trans (h r hr)
      rw [RateModel.duration_eq] at hr'
      rw [mul_sub, mul_one_div, mul_one_div, hr', add_sub_cancel_right]
    apply hne
    intro v hv w hw
    obtain ⟨r, hr, rfl⟩ := List.mem_map.mp hv
    obtain ⟨r', hr', rfl⟩ := List.mem_map.mp hw
    have hfactor : 1 / naiveRate rs - 1 / m.rate ≠ 0 := by
      intro hfactor
      rw [← hscale r hr, hfactor, mul_zero] at hoverhead
      exact hoverhead rfl
    exact mul_right_cancel₀ hfactor ((hscale r hr).trans (hscale r' hr').symm)
  · intro hzero r hr
    have hnil : rs ≠ [] := List.ne_nil_of_mem hr
    rw [naiveRate_of_explains hv h hnil hzero, h r hr, RateModel.duration_eq, hzero, zero_add]

/-- The score of a model that explains rounds of different works. -/
theorem score_of_explains (hm : m.Valid) (hv : ∀ r ∈ rs, r.Valid) (h : m.Explains rs)
    (hne : ¬ Coincide (rs.map Round.work)) :
    ∃ s, Round.score rs m = .ok s ∧ s.modelError.sum = 0 ∧
      (s.improves = true ↔ 0 < m.overhead) := by
  have hnil : rs ≠ [] := by
    rintro rfl
    exact hne fun v hv => (nomatch hv)
  have hpositive := (Exact.isPositive_iff _).mpr (naiveRate_pos hnil hv)
  obtain ⟨s, hs, hmodel, hnaive⟩ :=
    Round.score_eq_ok hnil hv hm (mean_eq_ok (accepts_rates hnil hv)) hpositive
  have hzero : s.modelError.sum = 0 := by
    rw [hmodel, absoluteError_eq_zero_iff]
    exact fun r hr => (h r hr).symm
  refine ⟨s, hs, hzero, ?_⟩
  have himproves : s.improves = true ↔ 0 < s.naiveError.sum := by
    rw [Score.improves, decide_eq_true_iff, hzero]
  have hnonneg : 0 ≤ m.overhead := hm.overhead.1
  rw [himproves, hnaive, (absoluteError_nonneg _ _).lt_iff_ne', ne_eq, absoluteError_eq_zero_iff,
    hnonneg.lt_iff_ne', ne_eq]
  exact not_congr (naive_exact_iff hv h hne)

/-! ## Fitting and then scoring -/

/-- **Fitting recovers a model that explains the rounds, and scoring it then finds no error.**
    Whatever the threshold and the limit, there is no block size to fit, or the mean works of
    its blocks are all equal, or the fit is the model; it then predicts every round, and
    improves on a single rate exactly when there is overhead. -/
theorem fit?_of_explains (hm : m.Valid) (hv : ∀ r ∈ rs, r.Valid) (h : m.Explains rs)
    (hl : 0 ≤ o.limit) :
    (Round.fit? rs o = .ok none ∧ ∀ q, ¬ Fitting rs o q) ∨
    ∃ q, Fitting rs o q ∧
      ((Coincide (Line.abscissas (blockPoints (keptRounds rs o) q)) ∧
        Round.fit? rs o = .error (.undefined .equalAbscissas)) ∨
      (¬ Coincide (Line.abscissas (blockPoints (keptRounds rs o) q)) ∧
        ∃ f, Round.fit? rs o = .ok (some f) ∧ f.Recovers m ∧ f.model = .ok m ∧
          ∃ s, Round.score rs m = .ok s ∧ s.modelError.sum = 0 ∧
            (s.improves = true ↔ 0 < m.overhead))) := by
  have hvkept : ∀ r ∈ keptRounds rs o, r.Valid := fun r hr => hv r (mem_of_mem_keptRounds hr)
  have hkept : m.Explains (keptRounds rs o) := fun r hr => h r (mem_of_mem_keptRounds hr)
  rcases Round.fit?_eq hv hl (fun hne => accepts_rates hne hvkept) rfl with hnone | ⟨q, hq, hfit⟩
  · exact .inl hnone
  refine .inr ⟨q, hq, ?_⟩
  rcases fitBlocks_of_explains hm hkept hq.three_le_div with ⟨hall, hblocks⟩ | ⟨hne, f, hblocks, hf⟩
  · rw [hblocks, error_bind] at hfit
    exact .inl ⟨hall, hfit⟩
  · rw [hblocks, ok_bind] at hfit
    have hq1 : 1 ≤ q := hq.least.1.1
    have hworks : ¬ Coincide (rs.map Round.work) := fun hall =>
      hne (coincide_blockPoints hq1 (hall.mono (List.map_subset _ fun _ => mem_of_mem_keptRounds)))
    exact .inr ⟨hne, f, hfit, hf, hf.model_eq_ok hm, score_of_explains hm hv h hworks⟩

/-! ## Four rounds -/

/-- An overhead of one, and one unit of work per nanosecond. -/
def unitModel : RateModel ℝ := ⟨1, 1⟩

/-- Rounds of whole numbers that the model explains; the second is not longer than the threshold
    of `fourOptions`. -/
def fourRounds : List (Round ℝ) :=
  [(2, 3), (1, 2), (4, 5), (2, 3)].map fun p : ℕ × ℕ => ⟨p.1, p.2⟩

noncomputable def fourOptions : FitOptions ℝ := ⟨Arith.count 2, 1⟩

theorem keptRounds_four : keptRounds fourRounds fourOptions = [⟨2, 3⟩, ⟨4, 5⟩, ⟨2, 3⟩] := by
  norm_num [keptRounds, fourRounds, fourOptions]

theorem fourRounds_valid : ∀ r ∈ fourRounds, r.Valid := by
  have hpart : ∀ r ∈ fourRounds, 0 < r.work ∧ 0 < r.duration := by
    norm_num [fourRounds]
  exact fun r hr => Round.valid_iff.mpr (hpart r hr)

theorem unitModel_explains : unitModel.Explains fourRounds := by
  norm_num [RateModel.Explains, RateModel.duration_eq, fourRounds, unitModel]

theorem unitModel_valid : unitModel.Valid where
  overhead := ⟨zero_le_one, rfl⟩
  rate := (Exact.isPositive_iff 1).mpr one_pos

theorem fitting_four : Fitting fourRounds fourOptions 1 := by
  have hrates : (keptRounds fourRounds fourOptions).map Round.rate = [2 / 3, 4 / 5, 2 / 3] := by
    norm_num [keptRounds_four, Round.rate]
  have hmean : MeanMethod.harmonic.reduce [2 / 3, 4 / 5, (2 / 3 : ℝ)] = 12 / 17 := by
    norm_num [reduce_harmonic]
  have hspread : spread [2 / 3, 4 / 5, (2 / 3 : ℝ)] (12 / 17) = 388 / 65025 := by
    norm_num [spread_eq, squareSum_eq]
  refine fitting_one fourRounds_valid (by simp [keptRounds_four]) hrates hmean ?_ ?_
  · rw [hspread]
    norm_num
  · norm_num [coefficientOf, crossSum, Arith.sumBy, hspread, abs_of_neg, fourOptions]

theorem not_coincide_four :
    ¬ Coincide (Line.abscissas (blockPoints (keptRounds fourRounds fourOptions) 1)) := by
  norm_num [Coincide, keptRounds_four, blockPoints_one, roundPoints]

theorem fit?_four : ∃ f, Round.fit? fourRounds fourOptions = .ok (some f) ∧ f.Recovers unitModel := by
  have hkept : unitModel.Explains (keptRounds fourRounds fourOptions) := fun r hr =>
    unitModel_explains r (mem_of_mem_keptRounds hr)
  have hfit := fit?_of_fitting fourRounds_valid zero_le_one fitting_four
  rcases fitBlocks_of_explains unitModel_valid hkept fitting_four.three_le_div with
    ⟨hall, _⟩ | ⟨_, f, hf, hrecovers⟩
  · exact absurd hall not_coincide_four
  · rw [hf, ok_bind] at hfit
    exact ⟨f, hfit, hrecovers⟩

/-- The fit to four rounds, one of them too short, is the model. -/
theorem fit?_of_explains_four :
    ∃ f s, Round.fit? fourRounds fourOptions = .ok (some f) ∧ f.Recovers unitModel ∧
      Round.score fourRounds unitModel = .ok s ∧ s.modelError.sum = 0 ∧ s.improves = true := by
  rcases fit?_of_explains (o := fourOptions) unitModel_valid fourRounds_valid unitModel_explains
    zero_le_one with ⟨_, hnone⟩ | ⟨q, hq, hcase⟩
  · exact absurd fitting_four (hnone 1)
  obtain rfl := hq.unique fitting_four
  rcases hcase with ⟨hall, _⟩ | ⟨_, f, hf, hrecovers, _, s, hs, hsum, himproves⟩
  · exact absurd hall not_coincide_four
  · exact ⟨f, s, hf, hrecovers, hs, hsum, himproves.mpr one_pos⟩

end BatchMeans.Throughput
