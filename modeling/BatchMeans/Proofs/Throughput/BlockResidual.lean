import BatchMeans.Proofs.Throughput.FitOutcome

/- The residuals of the blocks and those of the rounds.

   A fit reports the squared residuals of its line twice: over the rounds that are
   kept, and over the block means that the line was fitted to. The residual of a
   block mean is the mean of the residuals of the rounds in it (`residual_blockMean`),
   and the square of a mean is at most the mean of the squares, so that a block of `q`
   rounds has at least `q` times the squared residual of its mean. The rounds that fill no
   block only add to this (`mul_residualSum_blockPoints_le`). For blocks of one
   round both sums are one and the same. -/
namespace BatchMeans.Throughput
open Series
variable {rs b : List (Round ℝ)} {o : FitOptions ℝ} {q : ℕ} {f : Fit ℝ} {l : Line ℝ}

/-! ## One block -/

/-- The point of the two means lies as far above a line as the points do on average. -/
theorem Line.residual_reduce {points : List (ℝ × ℝ)} (l : Line ℝ) (hne : points ≠ []) :
    l.residual (MeanMethod.arithmetic.reduce (Line.abscissas points),
      MeanMethod.arithmetic.reduce (Line.ordinates points)) =
      MeanMethod.arithmetic.reduce (points.map l.residual) := by
  have hpoint : ∀ p : ℝ × ℝ, l.residual p = p.2 + (-l.slope * p.1 + -l.intercept) := by
    intro p
    rw [Line.residual, Line.valueAt_eq]
    ring
  rw [List.map_congr_left fun p _ => hpoint p, reduce_map_add, reduce_map_affine _ _ _ hne, hpoint]

/-- The distance of a round above a line. -/
noncomputable def Line.roundResidual (l : Line ℝ) (r : Round ℝ) : ℝ := l.residual (r.work, r.duration)

theorem Line.residualSum_roundPoints (l : Line ℝ) (rs : List (Round ℝ)) :
    l.residualSum (roundPoints rs) = (rs.map fun r => l.roundResidual r ^ 2).sum := by
  rw [Line.residualSum_eq, roundPoints, List.map_map]
  rfl

theorem residual_blockMean (l : Line ℝ) (hq : 1 ≤ q) (hb : b.length = q) :
    l.residual (Round.blockMean q b) = MeanMethod.arithmetic.reduce (b.map l.roundResidual) := by
  rw [blockMean_eq_roundPoints hb, l.residual_reduce (roundPoints_ne_nil (by omega)), roundPoints,
    List.map_map]
  rfl

theorem mul_sq_residual_blockMean_le (l : Line ℝ) (hq : 1 ≤ q) (hb : b.length = q) :
    (q : ℝ) * l.residual (Round.blockMean q b) ^ 2 ≤ (b.map fun r => l.roundResidual r ^ 2).sum := by
  -- Around zero the squares of the residuals are no less than if all were their mean.
  have hle := length_mul_sq_le_squareSum (b.map l.roundResidual) 0
  rw [zero_sub, neg_sq, List.length_map, hb, squareSum_eq, List.map_map] at hle
  rw [residual_blockMean l hq hb]
  simpa only [Function.comp_def, sub_zero] using hle

/-! ## All blocks -/

/-- The blocks together, and the rounds that fill none. -/
theorem mul_residualSum_blockPoints_le (l : Line ℝ) (hq : 1 ≤ q) :
    (q : ℝ) * l.residualSum (blockPoints rs q) ≤ l.residualSum (roundPoints rs) := by
  calc (q : ℝ) * l.residualSum (blockPoints rs q)
      = ((blocks q rs).map fun b => (q : ℝ) * l.residual (Round.blockMean q b) ^ 2).sum := by
        rw [Line.residualSum_eq, List.map_map, ← List.sum_map_mul_left]
        rfl
    _ ≤ ((blocks q rs).map fun b => (b.map fun r => l.roundResidual r ^ 2).sum).sum :=
        List.sum_le_sum fun b hb => mul_sq_residual_blockMean_le l hq (length_of_mem_blocks hb)
    _ = ((rs.take (rs.length / q * q)).map fun r => l.roundResidual r ^ 2).sum := sum_map_blocks q _ rs
    _ ≤ ((rs.take (rs.length / q * q)).map fun r => l.roundResidual r ^ 2).sum +
          ((rs.drop (rs.length / q * q)).map fun r => l.roundResidual r ^ 2).sum :=
        le_add_of_nonneg_right (Exact.sum_map_nonneg fun _ _ => sq_nonneg _)
    _ = l.residualSum (roundPoints rs) := by
        rw [← List.sum_append, ← List.map_append, List.take_append_drop, Line.residualSum_roundPoints]

/-! ## The fit -/

/-- The line of a fit: its overhead, and the reciprocal of its rate. -/
noncomputable def Fit.line (f : Fit ℝ) : Line ℝ := ⟨f.overhead, 1 / f.rate⟩

theorem Fitted.line_eq (h : Fitted rs o q f) :
    f.line = Line.fittedLine (blockPoints (keptRounds rs o) q) := by
  rw [h.eq, Fit.line, blockFit, one_div_one_div]

theorem Fitted.blockSize_eq (h : Fitted rs o q f) : f.blockSize = q := by
  rw [h.eq]
  rfl

theorem Fitted.residual_eq (h : Fitted rs o q f) :
    f.residual = f.line.residualSum (roundPoints (keptRounds rs o)) := by
  rw [h.line_eq, h.eq]
  rfl

theorem Fitted.blockResidual_eq (h : Fitted rs o q f) :
    f.blockResidual = f.line.residualSum (blockPoints (keptRounds rs o) q) := by
  rw [h.line_eq, h.eq]
  rfl

/-- **The two residual sums of a fit are consistent.** The residuals of the blocks, once for each round of a
    block, are at most those of the rounds, and the two are equal for blocks of one round. No
    other line has residuals as small for the block means. -/
theorem blockResidual_consistent (hfit : Round.fit? rs o = .ok (some f)) :
    (f.blockSize : ℝ) * f.blockResidual ≤ f.residual ∧
    (f.blockSize = 1 → f.blockResidual = f.residual) ∧
    f.residual = f.line.residualSum (roundPoints (keptRounds rs o)) ∧
    f.blockResidual = f.line.residualSum (blockPoints (keptRounds rs o) f.blockSize) ∧
    ∀ l, l ≠ f.line → f.blockResidual < l.residualSum (blockPoints (keptRounds rs o) f.blockSize) := by
  obtain ⟨_, _, q, h⟩ := fit?_eq_some_iff.mp hfit
  have hq : 1 ≤ q := h.fitting.least.1.1
  rw [h.blockSize_eq]
  refine ⟨?_, ?_, h.residual_eq, h.blockResidual_eq, ?_⟩
  · rw [h.blockResidual_eq, h.residual_eq]
    exact mul_residualSum_blockPoints_le f.line hq
  · rintro rfl
    rw [h.blockResidual_eq, h.residual_eq, blockPoints_one]
  · rw [h.blockResidual_eq, h.line_eq]
    exact Line.closest_fittedLine h.fitting.two_le_length h.works

/-! ## Seven rounds -/

/-- Rounds of two rates by turns: in pairs they no longer differ, but the seventh makes their mean rate
    differ from that of a pair. -/
def sevenRounds : List (Round ℝ) :=
  [(1, 1), (1, 2), (1, 1), (3, 6), (3, 3), (3, 6), (1, 1)].map fun p : ℕ × ℕ => ⟨p.1, p.2⟩

noncomputable def sevenOptions : FitOptions ℝ := ⟨0, 7 / 10⟩

theorem sevenRounds_valid : ∀ r ∈ sevenRounds, r.Valid := by
  have hpart : ∀ r ∈ sevenRounds, 0 < r.work ∧ 0 < r.duration := by
    norm_num [sevenRounds]
  exact fun r hr => Round.valid_iff.mpr (hpart r hr)

theorem keptRounds_seven : keptRounds sevenRounds sevenOptions = sevenRounds :=
  keptRounds_of_threshold_eq_zero rfl sevenRounds_valid

theorem rates_seven : sevenRounds.map Round.rate = [1, 1 / 2, 1, 1 / 2, 1, 1 / 2, 1] := by
  norm_num [sevenRounds, Round.rate]

theorem blockPoints_seven : blockPoints sevenRounds 2 = [(1, 3 / 2), (2, 7 / 2), (3, 9 / 2)] := by
  norm_num [blockPoints, sevenRounds, blocks, takeBlocks, Round.blockMean, Arith.sumBy]

/-- Neighbouring rounds are correlated by three quarters, neighbouring pairs by two thirds. -/
theorem fitting_seven : Fitting sevenRounds sevenOptions 2 := by
  have hmean : MeanMethod.harmonic.reduce [1, 1 / 2, 1, 1 / 2, 1, 1 / 2, (1 : ℝ)] = 7 / 10 := by
    norm_num [reduce_harmonic]
  have haccepts : Accepts [1, 1 / 2, 1, 1 / 2, 1, 1 / 2, (1 : ℝ)] .harmonic :=
    accepts_of_pos .harmonic (by simp) (by norm_num)
  have hpairs : reduceBlocks [1, 1 / 2, 1, 1 / 2, 1, 1 / 2, (1 : ℝ)] 2 .harmonic =
      [2 / 3, 2 / 3, 2 / 3] := by
    norm_num [reduceBlocks, blocks, takeBlocks, reduce_harmonic]
  have hspreadOne : spread [1, 1 / 2, 1, 1 / 2, 1, 1 / 2, (1 : ℝ)] (7 / 10) = 2 / 25 := by
    norm_num [spread_eq, squareSum_eq]
  have hspreadTwo : spread [2 / 3, 2 / 3, (2 / 3 : ℝ)] (7 / 10) = 1 / 600 := by
    norm_num [spread_eq, squareSum_eq]
  have hone : ¬ Qualifies [1, 1 / 2, 1, 1 / 2, 1, 1 / 2, (1 : ℝ)] (7 / 10) .harmonic (7 / 10) 1 := by
    rw [qualifies_iff haccepts (by simp) rfl, reduceBlocks_one, coefficientOf, hspreadOne]
    · norm_num [crossSum, Arith.sumBy, abs_of_neg]
    · rw [reduceBlocks_one, hspreadOne, Exact.isZero_iff]
      norm_num
  have htwo : Qualifies [1, 1 / 2, 1, 1 / 2, 1, 1 / 2, (1 : ℝ)] (7 / 10) .harmonic (7 / 10) 2 := by
    rw [qualifies_iff haccepts (by simp) rfl, hpairs, coefficientOf, hspreadTwo]
    · norm_num [crossSum, Arith.sumBy]
    · rw [hpairs, hspreadTwo, Exact.isZero_iff]
      norm_num
  have hlimit : sevenOptions.limit = 7 / 10 := rfl
  refine ⟨?_, by rw [keptRounds_seven]; decide⟩
  rw [keptRounds_seven, rates_seven, hmean, hlimit]
  refine ⟨htwo, fun q hq => ?_⟩
  have hpos : 1 ≤ q := hq.1
  have hne : q ≠ 1 := fun h => hone (h ▸ hq)
  omega

theorem not_coincide_seven : ¬ Coincide (Line.abscissas [((1 : ℝ), (3 / 2 : ℝ)), (2, 7 / 2), (3, 9 / 2)]) := by
  norm_num [Coincide]

theorem fittedLine_seven :
    Line.fittedLine [((1 : ℝ), (3 / 2 : ℝ)), (2, 7 / 2), (3, 9 / 2)] = ⟨1 / 6, 3 / 2⟩ := by
  have hnormal : Line.NormalEquations ⟨1 / 6, 3 / 2⟩ [((1 : ℝ), (3 / 2 : ℝ)), (2, 7 / 2), (3, 9 / 2)] := by
    constructor <;> norm_num [Line.residual, Line.valueAt_eq]
  exact (Line.closest_fittedLine (by simp) not_coincide_seven).unique (hnormal.closest not_coincide_seven)

/-- Pairs of rounds, with one round left over: the residuals of the pairs, twice, are less than those of the
    rounds, and no line but that of the fit has residuals as small for the pairs. -/
theorem blockResidual_consistent_seven :
    ∃ f, Round.fit? sevenRounds sevenOptions = .ok (some f) ∧ f.blockSize = 2 ∧ f.line = ⟨1 / 6, 3 / 2⟩ ∧
      f.blockResidual = 1 / 6 ∧ 2 * (1 / 6) ≤ f.residual ∧ ∀ l : Line ℝ, l ≠ ⟨1 / 6, 3 / 2⟩ →
        1 / 6 < l.residualSum [(1, 3 / 2), (2, 7 / 2), (3, 9 / 2)] := by
  have hslope : Line.fittedSlope [((1 : ℝ), (3 / 2 : ℝ)), (2, 7 / 2), (3, 9 / 2)] = 3 / 2 :=
    congrArg Line.slope fittedLine_seven
  have h : Fitted sevenRounds sevenOptions 2 (blockFit sevenRounds 2) :=
    { fitting := fitting_seven
      works := by
        rw [keptRounds_seven, blockPoints_seven]
        exact not_coincide_seven
      slope := by
        rw [keptRounds_seven, blockPoints_seven, hslope]
        norm_num
      eq := by rw [keptRounds_seven] }
  have hfit : Round.fit? sevenRounds sevenOptions = .ok (some (blockFit sevenRounds 2)) :=
    fit?_eq_some_iff.mpr ⟨by norm_num [sevenOptions], sevenRounds_valid, 2, h⟩
  have hline : (blockFit sevenRounds 2).line = ⟨1 / 6, 3 / 2⟩ := by
    rw [h.line_eq, keptRounds_seven, blockPoints_seven, fittedLine_seven]
  have hblocks : (blockFit sevenRounds 2).blockResidual = 1 / 6 := by
    rw [h.blockResidual_eq, hline, keptRounds_seven, blockPoints_seven]
    norm_num [Line.residualSum_eq, Line.residual, Line.valueAt_eq]
  obtain ⟨hle, _, _, _, hclosest⟩ := blockResidual_consistent hfit
  rw [h.blockSize_eq, keptRounds_seven, blockPoints_seven, hline, hblocks] at hclosest
  rw [h.blockSize_eq, hblocks] at hle
  exact ⟨_, hfit, h.blockSize_eq, hline, hblocks, hle, hclosest⟩

end BatchMeans.Throughput
