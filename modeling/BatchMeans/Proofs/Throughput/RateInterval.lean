import BatchMeans.Proofs.Throughput.FitOutcome

/- What the width of a fitted rate covers.

   The slope of a fit is uncertain by a half width, and the rate is the reciprocal of
   the slope. As long as the half width is less than the slope, reciprocals take the interval of the
   slope to an interval that holds the rate, and the width of the fit is the
   width of that one (`covers_of_lt`). A half width that reaches the slope lets
   positive slopes in that are as small as one likes; their rates are as large as one
   likes, and no number covers them (`not_covers_of_le`). The fit still gives a
   number there: the distance between two reciprocals of different sign, which
   falls with a growing half width. -/
namespace BatchMeans.Throughput
open Series
variable {rs : List (Round ℝ)} {o : FitOptions ℝ} {q : ℕ} {f : Fit ℝ} {rate halfWidth : ℝ}

/-! ## Slopes and rates -/

/-- Every positive slope within the half width has a rate within the width. -/
def Covers (rate halfWidth width : ℝ) : Prop :=
  ∀ s, 0 < s → |s - 1 / rate| ≤ halfWidth → |1 / s - rate| ≤ width

theorem one_div_mem_Icc {lo hi s : ℝ} (hlo : 0 < lo) (hs : s ∈ Set.Icc lo hi) :
    1 / s ∈ Set.Icc (1 / hi) (1 / lo) :=
  ⟨one_div_le_one_div_of_le (hlo.trans_le hs.1) hs.2, one_div_le_one_div_of_le hlo hs.1⟩

theorem covers_of_lt (h : halfWidth < 1 / rate) :
    Covers rate halfWidth |1 / (1 / rate - halfWidth) - 1 / (1 / rate + halfWidth)| := by
  intro s _ hs
  have hnonneg : 0 ≤ halfWidth := (abs_nonneg _).trans hs
  have hlo : 0 < 1 / rate - halfWidth := sub_pos.mpr h
  have hslope : s ∈ Set.Icc (1 / rate - halfWidth) (1 / rate + halfWidth) := by
    obtain ⟨hlower, hupper⟩ := abs_le.mp hs
    constructor <;> linarith
  have hcentre : 1 / rate ∈ Set.Icc (1 / rate - halfWidth) (1 / rate + halfWidth) :=
    ⟨sub_le_self _ hnonneg, le_add_of_nonneg_right hnonneg⟩
  have hrate := one_div_mem_Icc hlo hcentre
  rw [one_div_one_div] at hrate
  have hreciprocal := one_div_mem_Icc hlo hslope
  have hdist : |1 / s - rate| ≤ 1 / (1 / rate - halfWidth) - 1 / (1 / rate + halfWidth) :=
    abs_sub_le_iff.mpr ⟨sub_le_sub hreciprocal.2 hrate.1, sub_le_sub hrate.2 hreciprocal.1⟩
  exact hdist.trans (le_abs_self _)

theorem not_covers_of_le (hrate : 0 < rate) (h : 1 / rate ≤ halfWidth) (width : ℝ) :
    ¬ Covers rate halfWidth width := by
  intro hcovers
  -- The slope of a rate that is further away than the width.
  have hfar : rate ≤ rate + (|width| + 1) := le_add_of_nonneg_right (by positivity)
  have hs : 0 < 1 / (rate + (|width| + 1)) := one_div_pos.mpr (hrate.trans_le hfar)
  have hle : 1 / (rate + (|width| + 1)) ≤ 1 / rate := one_div_le_one_div_of_le hrate hfar
  have hnear : |1 / (rate + (|width| + 1)) - 1 / rate| ≤ halfWidth := by
    rw [abs_sub_comm, abs_of_nonneg (sub_nonneg.mpr hle)]
    exact (sub_le_self _ hs.le).trans h
  have hwidth := hcovers _ hs hnear
  rw [one_div_one_div, add_sub_cancel_left, abs_of_nonneg (by positivity)] at hwidth
  exact (lt_add_one |width|).not_ge (hwidth.trans (le_abs_self width))

/-- The reciprocals of an interval around zero leave out the gap between those of its ends. -/
theorem one_div_notMem_Ioo {lo hi s : ℝ} (hs : s ∈ Set.Icc lo hi) (hne : s ≠ 0) :
    1 / s ∉ Set.Ioo (1 / lo) (1 / hi) := by
  intro hgap
  rcases lt_or_gt_of_ne hne with hneg | hpos
  · exact hgap.1.not_ge (one_div_le_one_div_of_neg_of_le hneg hs.1)
  · exact hgap.2.not_ge (one_div_le_one_div_of_le hpos hs.2)

/-! ## The interval of a fit -/

/-- Twice the standard error of the slope, from the residuals of the blocks and their mean works. -/
noncomputable def Fit.slopeHalfWidth (f : Fit ℝ) (rs : List (Round ℝ)) (o : FitOptions ℝ) : ℝ :=
  let works := Line.abscissas (blockPoints (keptRounds rs o) f.blockSize)
  Arith.count 2 * Real.sqrt (f.blockResidual / ((f.blockCount - 2 : ℕ) : ℝ) /
    squareSum works (MeanMethod.arithmetic.reduce works))

theorem Fitted.slopeHalfWidth_eq (h : Fitted rs o q f) :
    f.slopeHalfWidth rs o = slopeHalfWidth (blockPoints (keptRounds rs o) q) := by
  rw [h.eq, slopeHalfWidth, length_blockPoints]
  rfl

theorem Fitted.slope_eq (h : Fitted rs o q f) :
    1 / f.rate = (Line.fittedLine (blockPoints (keptRounds rs o) q)).slope := by
  rw [h.eq]
  exact one_div_one_div _

theorem Fitted.rate_pos (h : Fitted rs o q f) : 0 < f.rate := by
  rw [h.eq]
  exact one_div_pos.mpr h.slope

theorem Fitted.rateWidth_eq (h : Fitted rs o q f) :
    f.rateWidth = |1 / (1 / f.rate - f.slopeHalfWidth rs o) -
      1 / (1 / f.rate + f.slopeHalfWidth rs o)| := by
  rw [h.slopeHalfWidth_eq, h.slope_eq, h.eq]
  rfl

/-- **The width of a fitted rate covers the rates of all slopes in the interval while that is
    positive.** Where the half width reaches the slope no width would cover them, and beyond that
    the width is the one of the gap that the rates leave out. -/
theorem rateWidth_covers (hfit : Round.fit? rs o = .ok (some f)) :
    (f.slopeHalfWidth rs o < 1 / f.rate → Covers f.rate (f.slopeHalfWidth rs o) f.rateWidth) ∧
    (1 / f.rate ≤ f.slopeHalfWidth rs o → ∀ width, ¬ Covers f.rate (f.slopeHalfWidth rs o) width) ∧
    (1 / f.rate < f.slopeHalfWidth rs o →
      f.rateWidth =
        1 / (1 / f.rate + f.slopeHalfWidth rs o) - 1 / (1 / f.rate - f.slopeHalfWidth rs o) ∧
      ∀ s, s ≠ 0 → |s - 1 / f.rate| ≤ f.slopeHalfWidth rs o →
        1 / s ∉ Set.Ioo (1 / (1 / f.rate - f.slopeHalfWidth rs o))
          (1 / (1 / f.rate + f.slopeHalfWidth rs o))) := by
  obtain ⟨_, _, q, h⟩ := fit?_eq_some_iff.mp hfit
  refine ⟨?_, fun hle => not_covers_of_le h.rate_pos hle, ?_⟩
  · intro hlt
    rw [h.rateWidth_eq]
    exact covers_of_lt hlt
  · intro hlt
    have hslope : 0 < 1 / f.rate := one_div_pos.mpr h.rate_pos
    have hlower : 1 / (1 / f.rate - f.slopeHalfWidth rs o) < 0 :=
      one_div_neg.mpr (sub_neg.mpr hlt)
    have hupper : 0 < 1 / (1 / f.rate + f.slopeHalfWidth rs o) :=
      one_div_pos.mpr (add_pos hslope (hslope.trans hlt))
    constructor
    · rw [h.rateWidth_eq, abs_sub_comm, abs_of_pos (sub_pos.mpr (hlower.trans hupper))]
    · intro s hne hs
      obtain ⟨hlo, hhi⟩ := abs_le.mp hs
      exact one_div_notMem_Ioo ⟨by linarith, by linarith⟩ hne

/-! ## Four rounds of two works -/

/-- Rounds of one and of two units of work, the latter of one duration. -/
def pairRounds (a b c : ℝ) : List (Round ℝ) :=
  [(1, a), (2, b), (1, c), (2, b)].map fun p : ℕ × ℝ => ⟨p.1, p.2⟩

section Pairs
variable {a b c : ℝ}

theorem blockPoints_pairs (a b c : ℝ) :
    blockPoints (pairRounds a b c) 1 = [(1, a), (2, b), (1, c), (2, b)] := by
  simp [blockPoints_one, roundPoints, pairRounds]

theorem not_coincide_pairs (a b c : ℝ) :
    ¬ Coincide (Line.abscissas [((1 : ℝ), a), (2, b), (1, c), (2, b)]) := by
  norm_num [Coincide]

/-- The line halves the distance between the two rounds of one unit, and meets the others. -/
theorem fittedLine_pairs (a b c : ℝ) :
    Line.fittedLine [(1, a), (2, b), (1, c), (2, b)] = ⟨a + c - b, b - (a + c) / 2⟩ := by
  have hnormal : Line.NormalEquations ⟨a + c - b, b - (a + c) / 2⟩
      [(1, a), (2, b), (1, c), (2, b)] := by
    constructor <;> simp [Line.residual, Line.valueAt_eq] <;> ring
  exact (Line.closest_fittedLine (by simp) (not_coincide_pairs a b c)).unique
    (hnormal.closest (not_coincide_pairs a b c))

theorem slopeHalfWidth_pairs (a b c : ℝ) :
    slopeHalfWidth [(1, a), (2, b), (1, c), (2, b)] = |a - c| := by
  have hresidual : Line.residualSum ⟨a + c - b, b - (a + c) / 2⟩
      [(1, a), (2, b), (1, c), (2, b)] = (a - c) ^ 2 / 2 := by
    simp [Line.residualSum_eq, Line.residual, Line.valueAt_eq]
    ring
  have hsquares : squareSum [1, 2, 1, (2 : ℝ)] (MeanMethod.arithmetic.reduce [1, 2, 1, 2]) = 1 := by
    norm_num [squareSum_eq, reduce_arithmetic]
  have hroot : (a - c) ^ 2 / 2 / ((4 - 2 : ℕ) : ℝ) / 1 = (|a - c| / 2) ^ 2 := by
    rw [div_pow, sq_abs]
    norm_num
    ring
  calc slopeHalfWidth [(1, a), (2, b), (1, c), (2, b)]
      = 2 * Real.sqrt ((a - c) ^ 2 / 2 / ((4 - 2 : ℕ) : ℝ) /
          squareSum [1, 2, 1, 2] (MeanMethod.arithmetic.reduce [1, 2, 1, 2])) := by
        rw [slopeHalfWidth, fittedLine_pairs, hresidual]
        rfl
    _ = 2 * (|a - c| / 2) := by rw [hsquares, hroot, Real.sqrt_sq (by positivity)]
    _ = |a - c| := mul_div_cancel₀ _ two_ne_zero

theorem pairRounds_valid (ha : 0 < a) (hb : 0 < b) (hc : 0 < c) : ∀ r ∈ pairRounds a b c, r.Valid := by
  have hpart : ∀ r ∈ pairRounds a b c, 0 < r.work ∧ 0 < r.duration := by
    simp [pairRounds, ha, hb, hc]
  exact fun r hr => Round.valid_iff.mpr (hpart r hr)

theorem keptRounds_pairs (ha : 0 < a) (hb : 0 < b) (hc : 0 < c) :
    keptRounds (pairRounds a b c) .standard = pairRounds a b c :=
  keptRounds_of_threshold_eq_zero rfl (pairRounds_valid ha hb hc)

theorem standard_limit : (FitOptions.standard : FitOptions ℝ).limit = 1 / 10 := by
  norm_num [FitOptions.standard, Arith.ratio]

theorem fitting_pairs (ha : 0 < a) (hb : 0 < b) (hc : 0 < c) {m v : ℝ}
    (hmean : MeanMethod.harmonic.reduce [1 / a, 2 / b, 1 / c, 2 / b] = m)
    (hspread : spread [1 / a, 2 / b, 1 / c, 2 / b] m = v) (hv : v ≠ 0)
    (hcoefficient : |coefficientOf [1 / a, 2 / b, 1 / c, 2 / b] m| ≤ 1 / 10) :
    Fitting (pairRounds a b c) .standard 1 := by
  have hkept := keptRounds_pairs ha hb hc
  refine fitting_one (pairRounds_valid ha hb hc) ?_ ?_ hmean (hspread.trans_ne hv) ?_
  · rw [hkept]
    simp [pairRounds]
  · rw [hkept]
    simp [pairRounds, Round.rate]
  · rwa [standard_limit]

theorem fit?_pairs (ha : 0 < a) (hb : 0 < b) (hc : 0 < c)
    (hq : Fitting (pairRounds a b c) .standard 1) (hslope : 0 < b - (a + c) / 2) :
    ∃ f, Round.fit? (pairRounds a b c) .standard = .ok (some f) ∧
      Fitted (pairRounds a b c) .standard 1 f ∧ 1 / f.rate = b - (a + c) / 2 ∧
      f.slopeHalfWidth (pairRounds a b c) .standard = |a - c| := by
  have hl : 0 ≤ (FitOptions.standard : FitOptions ℝ).limit := by
    rw [standard_limit]
    norm_num
  have hkept := keptRounds_pairs ha hb hc
  have hall : ¬ Coincide (Line.abscissas (blockPoints (pairRounds a b c) 1)) := by
    rw [blockPoints_pairs]
    exact not_coincide_pairs a b c
  have hfitted : Line.fittedLine (blockPoints (pairRounds a b c) 1) = ⟨a + c - b, b - (a + c) / 2⟩ := by
    rw [blockPoints_pairs, fittedLine_pairs]
  have hfittedSlope : Line.fittedSlope (blockPoints (pairRounds a b c) 1) = b - (a + c) / 2 :=
    congrArg Line.slope hfitted
  have hpos : 0 < Line.fittedSlope (blockPoints (pairRounds a b c) 1) := by
    rw [hfittedSlope]
    exact hslope
  have h : Fitted (pairRounds a b c) .standard 1 (blockFit (pairRounds a b c) 1) :=
    { fitting := hq
      works := by rwa [hkept]
      slope := by rwa [hkept]
      eq := by rw [hkept] }
  refine ⟨_, fit?_eq_some_iff.mpr ⟨hl, pairRounds_valid ha hb hc, 1, h⟩, h, ?_, ?_⟩
  · rw [h.slope_eq, hkept, hfitted]
  · rw [h.slopeHalfWidth_eq, hkept, blockPoints_pairs, slopeHalfWidth_pairs]

end Pairs

/-- The slope of these rounds is `5 / 2`, give or take one: the width covers the rates of all
    slopes from `3 / 2` to `7 / 2`. -/
theorem rateWidth_covers_pairs :
    ∃ f, Round.fit? (pairRounds 4 6 3) .standard = .ok (some f) ∧ f.rate = 2 / 5 ∧
      f.slopeHalfWidth (pairRounds 4 6 3) .standard = 1 ∧ Covers (2 / 5) 1 f.rateWidth := by
  have hq : Fitting (pairRounds 4 6 3) .standard 1 := by
    have hmean : MeanMethod.harmonic.reduce [1 / 4, 2 / 6, 1 / 3, (2 / 6 : ℝ)] = 4 / 13 := by
      norm_num [reduce_harmonic]
    have hspread : spread [1 / 4, 2 / 6, 1 / 3, (2 / 6 : ℝ)] (4 / 13) = 43 / 24336 := by
      norm_num [spread_eq, squareSum_eq]
    refine fitting_pairs (by norm_num) (by norm_num) (by norm_num) hmean hspread (by norm_num) ?_
    rw [coefficientOf, hspread]
    norm_num [crossSum, Arith.sumBy, abs_of_neg]
  obtain ⟨f, hfit, _, hslope, hwidth⟩ :=
    fit?_pairs (by norm_num) (by norm_num) (by norm_num) hq (by norm_num)
  have hrate : f.rate = 2 / 5 := by
    rw [← one_div_one_div f.rate, hslope]
    norm_num
  have hone : f.slopeHalfWidth (pairRounds 4 6 3) .standard = 1 := by
    rw [hwidth]
    norm_num
  have hcovers := (rateWidth_covers hfit).1 (by rw [hone, hrate]; norm_num)
  rw [hone, hrate] at hcovers
  exact ⟨f, hfit, hrate, hone, hcovers⟩

/-- The slope of these rounds is one, give or take two: the rate of a slope of a quarter is three
    away from that of the fit, and the width is less. -/
theorem rateWidth_crossing :
    ∃ f, Round.fit? (pairRounds 1 3 3) .standard = .ok (some f) ∧ f.rate = 1 ∧
      f.slopeHalfWidth (pairRounds 1 3 3) .standard = 2 ∧ f.rateWidth = 4 / 3 ∧
      ¬ Covers f.rate (f.slopeHalfWidth (pairRounds 1 3 3) .standard) f.rateWidth := by
  have hq : Fitting (pairRounds 1 3 3) .standard 1 := by
    have hmean : MeanMethod.harmonic.reduce [1 / 1, 2 / 3, 1 / 3, (2 / 3 : ℝ)] = 4 / 7 := by
      norm_num [reduce_harmonic]
    have hspread : spread [1 / 1, 2 / 3, 1 / 3, (2 / 3 : ℝ)] (4 / 7) = 38 / 441 := by
      norm_num [spread_eq, squareSum_eq]
    refine fitting_pairs (by norm_num) (by norm_num) (by norm_num) hmean hspread (by norm_num) ?_
    rw [coefficientOf, hspread]
    norm_num [crossSum, Arith.sumBy, abs_of_neg]
  obtain ⟨f, hfit, h, hslope, hwidth⟩ :=
    fit?_pairs (by norm_num) (by norm_num) (by norm_num) hq (by norm_num)
  have hrate : f.rate = 1 := by
    rw [← one_div_one_div f.rate, hslope]
    norm_num
  have htwo : f.slopeHalfWidth (pairRounds 1 3 3) .standard = 2 := by
    rw [hwidth]
    norm_num
  have hrateWidth : f.rateWidth = 4 / 3 := by
    rw [h.rateWidth_eq, hrate, htwo]
    norm_num [abs_of_neg]
  refine ⟨f, hfit, hrate, htwo, hrateWidth, ?_⟩
  rw [hrate, htwo, hrateWidth]
  intro hcovers
  have hquarter := hcovers (1 / 4) (by norm_num) (by norm_num [abs_of_neg])
  norm_num at hquarter

end BatchMeans.Throughput
