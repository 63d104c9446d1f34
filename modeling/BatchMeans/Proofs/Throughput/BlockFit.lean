import BatchMeans.Proofs.Series.CorrelationBound
import BatchMeans.Proofs.Throughput.Acceptance
import BatchMeans.Proofs.Throughput.LeastSquares

/- The fit of a line to the blocks of exact rounds.

   The points of the regression are the mean work and the mean duration of each
   block (`blockPoints`). With three blocks or more there is only one question
   left to each later step: whether the mean works are all equal, and whether the
   slope is positive (`fitBlocks_eq`). The squares of the mean works, which the code
   gets back from their variance, are the plain sum of squares around the mean. -/
namespace BatchMeans.Throughput
open Series
variable {rs b : List (Round ℝ)} {o : FitOptions ℝ} {q : ℕ}

/-! ## Rates -/

section Rates
variable {K : Type} [Field K] [LinearOrder K] [IsStrictOrderedRing K] {rs : List (Round K)}

theorem Round.valid_iff {r : Round K} : r.Valid ↔ 0 < r.work ∧ 0 < r.duration := by
  rw [← Exact.isPositive_iff r.work, ← Exact.isPositive_iff r.duration]
  exact ⟨fun h => ⟨h.work, h.duration⟩, fun h => ⟨h.1, h.2⟩⟩

theorem rate_pos {r : Round K} (hv : r.Valid) : 0 < r.rate :=
  div_pos (Round.valid_iff.mp hv).1 (Round.valid_iff.mp hv).2

theorem rates_pos (hv : ∀ r ∈ rs, r.Valid) : ∀ x ∈ rs.map Round.rate, 0 < x := by
  intro x hx
  obtain ⟨r, hr, rfl⟩ := List.mem_map.mp hx
  exact rate_pos (hv r hr)

theorem accepts_rates (hne : rs ≠ []) (hv : ∀ r ∈ rs, r.Valid) :
    Accepts (rs.map Round.rate) .harmonic :=
  accepts_of_pos .harmonic (by simpa using hne) (rates_pos hv)

end Rates

/-! ## The size of the blocks -/

/-- Three valid rounds or more are fitted one by one when the coefficient of their rates is within
    the limit. -/
theorem fitting_one {rates : List ℝ} {m : ℝ} (hv : ∀ r ∈ rs, r.Valid)
    (hlen : 3 ≤ (keptRounds rs o).length) (hrates : (keptRounds rs o).map Round.rate = rates)
    (hmean : MeanMethod.harmonic.reduce rates = m) (hspread : spread rates m ≠ 0)
    (hcoefficient : |coefficientOf rates m| ≤ o.limit) : Fitting rs o 1 := by
  subst hrates hmean
  have haccepts := accepts_rates (List.ne_nil_of_length_pos (by omega)) (valid_keptRounds (o := o) hv)
  refine ⟨isLeast_one haccepts ?_ hspread hcoefficient, by rwa [Nat.div_one]⟩
  rw [List.length_map]
  omega

/-- A fit of valid rounds is the fit to the one block size that is fitting, or there is none. -/
theorem fit?_cases (hv : ∀ r ∈ rs, r.Valid) (hl : 0 ≤ o.limit) :
    (Round.fit? rs o = .ok none ∧ ∀ q, ¬ Fitting rs o q) ∨
    ∃ q, Fitting rs o q ∧
      Round.fit? rs o = (Round.fitBlocks (keptRounds rs o) q >>= fun f => .ok (some f)) :=
  Round.fit?_eq hv hl (fun hne => accepts_rates hne (valid_keptRounds hv)) rfl

theorem fit?_of_fitting (hv : ∀ r ∈ rs, r.Valid) (hl : 0 ≤ o.limit) (hq : Fitting rs o q) :
    Round.fit? rs o = (Round.fitBlocks (keptRounds rs o) q >>= fun f => .ok (some f)) := by
  rcases fit?_cases hv hl with ⟨_, hnone⟩ | ⟨q', hq', hfit⟩
  · exact absurd hq (hnone q)
  · obtain rfl := hq.unique hq'
    exact hfit

/-! ## Points -/

/-- The points that the line is fitted to. -/
noncomputable abbrev blockPoints (rs : List (Round ℝ)) (q : ℕ) : List (ℝ × ℝ) :=
  (blocks q rs).map (Round.blockMean q)

theorem blockMean_eq (hb : b.length = q) :
    Round.blockMean q b = (MeanMethod.arithmetic.reduce (b.map Round.work),
      MeanMethod.arithmetic.reduce (b.map Round.duration)) := by
  rw [reduce_arithmetic, reduce_arithmetic, List.length_map, List.length_map, hb,
    Round.blockMean, Exact.sumBy_eq_sum, Exact.sumBy_eq_sum]

theorem length_blockPoints (rs : List (Round ℝ)) (q : ℕ) :
    (blockPoints rs q).length = rs.length / q := by
  rw [List.length_map, length_blocks]

/-- The rounds as points. -/
def roundPoints (rs : List (Round ℝ)) : List (ℝ × ℝ) := rs.map fun r => (r.work, r.duration)

theorem roundPoints_ne_nil (h : 1 ≤ rs.length) : roundPoints rs ≠ [] :=
  List.ne_nil_of_length_pos (by rwa [roundPoints, List.length_map])

/-- The mean point of a block is the point of the two means. -/
theorem blockMean_eq_roundPoints (hb : b.length = q) :
    Round.blockMean q b = (MeanMethod.arithmetic.reduce (Line.abscissas (roundPoints b)),
      MeanMethod.arithmetic.reduce (Line.ordinates (roundPoints b))) := by
  rw [blockMean_eq hb, Line.abscissas, Line.ordinates, roundPoints, List.map_map, List.map_map]
  rfl

/-- Blocks of one round are the rounds. -/
theorem blockPoints_one (rs : List (Round ℝ)) : blockPoints rs 1 = roundPoints rs := by
  have hround : ∀ r : Round ℝ, Round.blockMean 1 [r] = (r.work, r.duration) := by
    intro r
    simp [Round.blockMean, Arith.sumBy]
  rw [blockPoints, blocks_one, List.map_map, roundPoints]
  exact List.map_congr_left fun r _ => hround r

/-! ## The fit -/

/-- Half the width of the interval of the slope: twice its standard error. -/
noncomputable def slopeHalfWidth (points : List (ℝ × ℝ)) : ℝ :=
  Arith.count 2 * Real.sqrt ((Line.fittedLine points).residualSum points / ((points.length - 2 : ℕ) : ℝ) /
    squareSum (Line.abscissas points) (MeanMethod.arithmetic.reduce (Line.abscissas points)))

/-- The fit to blocks of `q` rounds, once its slope is known to be positive. -/
noncomputable def blockFit (rs : List (Round ℝ)) (q : ℕ) : Fit ℝ :=
  let line := Line.fittedLine (blockPoints rs q)
  let halfWidth := slopeHalfWidth (blockPoints rs q)
  { overhead := line.intercept
    rate := 1 / line.slope
    blockSize := q
    blockCount := rs.length / q
    roundsUsed := rs.length
    residual := line.residualSum (roundPoints rs)
    blockResidual := line.residualSum (blockPoints rs q)
    rateWidth := |1 / (line.slope - halfWidth) - 1 / (line.slope + halfWidth)| }

/-- The variance times one less than the count is the sum of the squares. -/
theorem spread_mul_count {vs : List ℝ} (hn : 2 ≤ vs.length) (c : ℝ) :
    spread vs c * ((vs.length - 1 : ℕ) : ℝ) = squareSum vs c := by
  have hcount : ((vs.length - 1 : ℕ) : ℝ) ≠ 0 := Nat.cast_ne_zero.mpr (by omega)
  rw [spread_eq, div_mul_cancel₀ _ hcount]

/-- The fit to three blocks or more fails for equal mean works, and for a slope that is not
    positive; otherwise it is `blockFit`. -/
theorem fitBlocks_eq (hdiv : 3 ≤ rs.length / q) :
    Round.fitBlocks rs q =
      if Coincide (Line.abscissas (blockPoints rs q)) then .error (.undefined .equalAbscissas)
      else if 0 < Line.fittedSlope (blockPoints rs q) then .ok (blockFit rs q)
      else .error (.invalid (.slopeNotPositive (Line.fittedSlope (blockPoints rs q)))) := by
  have hlen := length_blockPoints rs q
  have hpoints : 2 ≤ (blockPoints rs q).length := by omega
  have hworks : (Line.abscissas (blockPoints rs q)).length = rs.length / q := by
    rw [List.length_map, hlen]
  have htwo : 2 ≤ (Line.abscissas (blockPoints rs q)).length := by omega
  have hmean : mean (Line.abscissas (blockPoints rs q)) .arithmetic = .ok _ :=
    mean_arithmetic_eq_ok (List.ne_nil_of_length_pos (by omega))
  have hsquares := spread_mul_count htwo
    (MeanMethod.arithmetic.reduce (Line.abscissas (blockPoints rs q)))
  rw [hworks] at hsquares
  have hline := Line.leastSquares_eq hpoints
  by_cases hall : Coincide (Line.abscissas (blockPoints rs q))
  · rw [if_pos hall] at hline ⊢
    simp only [Round.fitBlocks, hline, error_bind]
  · rw [if_neg hall] at hline ⊢
    by_cases hslope : 0 < Line.fittedSlope (blockPoints rs q)
    · have hslope' : 0 < (Line.fittedLine (blockPoints rs q)).slope := hslope
      simp only [Round.fitBlocks, hline, ok_bind, require_of hslope', hmean,
        blockVariance_one_eq_ok htwo, Exact.count_eq, hsquares, if_pos hslope, pure_eq_ok]
      rw [blockFit, slopeHalfWidth, hlen]
      rfl
    · have hslope' : ¬ 0 < (Line.fittedLine (blockPoints rs q)).slope := hslope
      simp only [Round.fitBlocks, hline, ok_bind, require_of_not hslope', error_bind,
        if_neg hslope]
      rfl

end BatchMeans.Throughput
