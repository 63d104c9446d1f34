import BatchMeans.Proofs.Series.UnitChange
import BatchMeans.Proofs.Throughput.ExactModel

/- Rounds in other units of work and of time.

   A change of the two units multiplies every work by one positive number and
   every duration by another. Each quantity of a fit has a unit made of these
   two: the overhead is a time, the slope a time over a work, the rate and the
   width of its interval a work over a time, and a residual the square of a time.
   The coefficients of the search have none, so the block size stays. Step by step,
   from the rates through the points to the line, what is computed in the new
   units is what was computed in the old ones, taken to the new units; at the
   end the whole fit is, its faults included (`fit?_inUnits`). -/
namespace BatchMeans.Throughput
open Series

/-- How many of the new units one of the old units is. -/
structure RoundUnits where
  work : ℝ
  time : ℝ
  work_pos : 0 < work
  time_pos : 0 < time

namespace RoundUnits
variable (u : RoundUnits)

/-- A round in the new units. -/
def round (r : Round ℝ) : Round ℝ := ⟨u.work * r.work, u.time * r.duration⟩

/-- A threshold is a time, and a limit has no unit. -/
def options (o : FitOptions ℝ) : FitOptions ℝ := ⟨u.time * o.threshold, o.limit⟩

/-- A point of work and duration in the new units. -/
def point (p : ℝ × ℝ) : ℝ × ℝ := (u.work * p.1, u.time * p.2)

/-- A line of duration against work in the new units. -/
noncomputable def line (l : Line ℝ) : Line ℝ := ⟨u.time * l.intercept, u.time / u.work * l.slope⟩

/-- A fit in the new units. -/
noncomputable def fit (f : Fit ℝ) : Fit ℝ where
  overhead := u.time * f.overhead
  rate := u.work / u.time * f.rate
  blockSize := f.blockSize
  blockCount := f.blockCount
  roundsUsed := f.roundsUsed
  residual := u.time ^ 2 * f.residual
  blockResidual := u.time ^ 2 * f.blockResidual
  rateWidth := u.work / u.time * f.rateWidth

/-- A cause with its number in the new units. -/
noncomputable def cause : Invalid ℝ → Invalid ℝ
  | .workNotPositive work => .workNotPositive (u.work * work)
  | .durationNotPositive duration => .durationNotPositive (u.time * duration)
  | .slopeNotPositive slope => .slopeNotPositive (u.time / u.work * slope)
  | .round i c => .round i (cause c)
  | c => c

/-- What a computation ends with, in the new units: a value, a broken rule or a zero divisor as
    before. -/
noncomputable def ended {β : Type} (value : β → β) : Checked ℝ β → Checked ℝ β
  | .ok b => .ok (value b)
  | .error (.invalid c) => .error (.invalid (u.cause c))
  | .error (.undefined c) => .error (.undefined c)

/-- Works, durations and rates as readings in another unit. -/
def workUnit : UnitChange ℝ := ⟨u.work, 0, u.work_pos.ne'⟩

def timeUnit : UnitChange ℝ := ⟨u.time, 0, u.time_pos.ne'⟩

noncomputable def rateUnit : UnitChange ℝ :=
  ⟨u.work / u.time, 0, div_ne_zero u.work_pos.ne' u.time_pos.ne'⟩

theorem rateUnit_suits (method : MeanMethod) : u.rateUnit.Suits method := fun _ => rfl

theorem slope_pos : 0 < u.time / u.work := div_pos u.time_pos u.work_pos

/-! ## Rounds -/

variable {rs kept : List (Round ℝ)} {o : FitOptions ℝ} {q : ℕ}

theorem check_round (r : Round ℝ) : (u.round r).check = u.ended id r.check := by
  have hwork : 0 < u.work * r.work ↔ 0 < r.work := mul_pos_iff_of_pos_left u.work_pos
  have htime : 0 < u.time * r.duration ↔ 0 < r.duration := mul_pos_iff_of_pos_left u.time_pos
  simp only [Round.check, round, require, Exact.isPositive_iff, hwork, htime]
  split
  · split
    · rfl
    · rfl
  · rfl

theorem checkFrom_map (i : ℕ) (rs : List (Round ℝ)) :
    Round.checkFrom i (rs.map u.round) = u.ended id (Round.checkFrom i rs) := by
  induction rs generalizing i with
  | nil => rfl
  | cons r rest ih =>
    rw [List.map_cons, Round.checkFrom, Round.checkFrom, check_round]
    cases r.check with
    | ok _ => exact ih (i + 1)
    | error e =>
      cases e with
      | invalid c => rfl
      | undefined c => rfl

/-- The same rounds are long enough. -/
theorem keptRounds_map (rs : List (Round ℝ)) (o : FitOptions ℝ) :
    keptRounds (rs.map u.round) (u.options o) = (keptRounds rs o).map u.round := by
  rw [keptRounds, keptRounds, List.filter_map]
  apply congrArg (List.map u.round)
  apply List.filter_congr
  intro r _
  apply decide_eq_decide.mpr
  exact mul_lt_mul_iff_right₀ u.time_pos

theorem rates_map (rs : List (Round ℝ)) :
    (rs.map u.round).map Round.rate = (rs.map Round.rate).map u.rateUnit.reading := by
  rw [List.map_map, List.map_map]
  apply List.map_congr_left
  intro r _
  show u.work * r.work / (u.time * r.duration) = u.work / u.time * (r.work / r.duration) + 0
  rw [add_zero, div_mul_div_comm]

/-! ## Points -/

theorem roundPoints_map (rs : List (Round ℝ)) :
    roundPoints (rs.map u.round) = (roundPoints rs).map u.point := by
  simp only [roundPoints, List.map_map]
  rfl

theorem blockMean_map (q : ℕ) (b : List (Round ℝ)) :
    Round.blockMean q (b.map u.round) = u.point (Round.blockMean q b) := by
  have hwork : ((b.map u.round).map Round.work).sum = u.work * (b.map Round.work).sum := by
    rw [List.map_map, ← List.sum_map_mul_left]
    rfl
  have htime : ((b.map u.round).map Round.duration).sum = u.time * (b.map Round.duration).sum := by
    rw [List.map_map, ← List.sum_map_mul_left]
    rfl
  simp only [Round.blockMean, Exact.sumBy_eq_sum, hwork, htime, mul_div_assoc, point]

theorem blockPoints_map (rs : List (Round ℝ)) (q : ℕ) :
    blockPoints (rs.map u.round) q = (blockPoints rs q).map u.point := by
  rw [blockPoints, blockPoints, blocks_map, List.map_map, List.map_map]
  apply List.map_congr_left
  intro b _
  exact u.blockMean_map q b

variable {points : List (ℝ × ℝ)}

theorem abscissas_map (points : List (ℝ × ℝ)) :
    Line.abscissas (points.map u.point) = (Line.abscissas points).map u.workUnit.reading := by
  rw [Line.abscissas, Line.abscissas, List.map_map, List.map_map]
  apply List.map_congr_left
  intro p _
  exact (add_zero (u.work * p.1)).symm

theorem ordinates_map (points : List (ℝ × ℝ)) :
    Line.ordinates (points.map u.point) = (Line.ordinates points).map u.timeUnit.reading := by
  rw [Line.ordinates, Line.ordinates, List.map_map, List.map_map]
  apply List.map_congr_left
  intro p _
  exact (add_zero (u.time * p.2)).symm

theorem reduce_abscissas_map (hne : points ≠ []) :
    MeanMethod.arithmetic.reduce (Line.abscissas (points.map u.point)) =
      u.work * MeanMethod.arithmetic.reduce (Line.abscissas points) := by
  rw [abscissas_map]
  exact reduce_map_of_shift_eq_zero rfl (mt List.map_eq_nil_iff.mp hne)

theorem reduce_ordinates_map (hne : points ≠ []) :
    MeanMethod.arithmetic.reduce (Line.ordinates (points.map u.point)) =
      u.time * MeanMethod.arithmetic.reduce (Line.ordinates points) := by
  rw [ordinates_map]
  exact reduce_map_of_shift_eq_zero rfl (mt List.map_eq_nil_iff.mp hne)

theorem coincide_abscissas_map (points : List (ℝ × ℝ)) :
    Coincide (Line.abscissas (points.map u.point)) ↔ Coincide (Line.abscissas points) := by
  rw [abscissas_map, Coincide, Coincide, List.forall_mem_map]
  simp only [List.forall_mem_map]
  refine forall₂_congr fun v _ => forall₂_congr fun w _ => ?_
  rw [← sub_eq_zero, UnitChange.reading_sub_reading, mul_eq_zero_iff_left u.workUnit.scale_ne_zero,
    sub_eq_zero]

/-! ## The line -/

theorem crossProducts_map (hne : points ≠ []) :
    Line.crossProducts (points.map u.point) = u.work * u.time * Line.crossProducts points := by
  rw [Line.crossProducts, Line.crossProducts, reduce_abscissas_map u hne, reduce_ordinates_map u hne,
    Exact.sumBy_eq_sum, Exact.sumBy_eq_sum, List.map_map, ← List.sum_map_mul_left]
  apply congrArg List.sum
  apply List.map_congr_left
  intro p _
  simp only [Function.comp_apply, point]
  ring

theorem squareSum_abscissas_map (hne : points ≠ []) :
    squareSum (Line.abscissas (points.map u.point))
        (MeanMethod.arithmetic.reduce (Line.abscissas (points.map u.point))) =
      u.work ^ 2 * squareSum (Line.abscissas points)
        (MeanMethod.arithmetic.reduce (Line.abscissas points)) := by
  have hne' : Line.abscissas points ≠ [] := mt List.map_eq_nil_iff.mp hne
  rw [abscissas_map, reduce_map (fun _ => rfl) hne', squareSum_map]
  rfl

theorem fittedSlope_map (hne : points ≠ []) :
    Line.fittedSlope (points.map u.point) = u.time / u.work * Line.fittedSlope points := by
  have hunit : u.work * u.time / u.work ^ 2 = u.time / u.work := by
    rw [sq, mul_div_mul_left _ _ u.work_pos.ne']
  have hspread : spread (Line.abscissas (points.map u.point))
        (MeanMethod.arithmetic.reduce (Line.abscissas (points.map u.point))) =
      u.work ^ 2 * spread (Line.abscissas points)
        (MeanMethod.arithmetic.reduce (Line.abscissas points)) := by
    rw [abscissas_map, spread_reduce_map u.workUnit (mt List.map_eq_nil_iff.mp hne)]
    rfl
  rw [Line.fittedSlope, Line.fittedSlope, hspread, crossProducts_map u hne, List.length_map,
    mul_div_assoc, mul_div_mul_comm, hunit]

theorem fittedLine_map (hne : points ≠ []) :
    Line.fittedLine (points.map u.point) = u.line (Line.fittedLine points) := by
  have hwork := u.work_pos.ne'
  rw [Line.fittedLine, Line.fittedLine, line, fittedSlope_map u hne, reduce_abscissas_map u hne,
    reduce_ordinates_map u hne]
  congr 1
  field_simp

theorem residualSum_map (l : Line ℝ) (points : List (ℝ × ℝ)) :
    (u.line l).residualSum (points.map u.point) = u.time ^ 2 * l.residualSum points := by
  have hwork := u.work_pos.ne'
  rw [Line.residualSum, Line.residualSum, Exact.sumBy_eq_sum, Exact.sumBy_eq_sum, List.map_map,
    ← List.sum_map_mul_left]
  apply congrArg List.sum
  apply List.map_congr_left
  intro p _
  simp only [Function.comp_apply, point, line, Line.valueAt_eq, Exact.square_eq]
  field_simp

theorem slopeHalfWidth_map (hne : points ≠ []) :
    slopeHalfWidth (points.map u.point) = u.time / u.work * slopeHalfWidth points := by
  have hquotient : ∀ residual squares count : ℝ,
      u.time ^ 2 * residual / count / (u.work ^ 2 * squares) =
        (u.time / u.work) ^ 2 * (residual / count / squares) := by
    intro residual squares count
    rw [mul_div_assoc, mul_div_mul_comm, div_pow]
  rw [slopeHalfWidth, slopeHalfWidth, fittedLine_map u hne, residualSum_map,
    squareSum_abscissas_map u hne, List.length_map, hquotient, Real.sqrt_mul (sq_nonneg _),
    Real.sqrt_sq u.slope_pos.le]
  ring

/-! ## The fit -/

/-- The distance of two reciprocals is divided by what the numbers are multiplied by. -/
theorem abs_reciprocals_sub {c : ℝ} (hc : 0 < c) (a b : ℝ) :
    |1 / (c * a) - 1 / (c * b)| = 1 / c * |1 / a - 1 / b| := by
  rw [one_div_mul_eq_div, ← abs_of_pos hc, ← abs_div, abs_of_pos hc, sub_div, div_div, div_div,
    mul_comm a, mul_comm b]

theorem blockFit_map (hdiv : 3 ≤ kept.length / q) :
    blockFit (kept.map u.round) q = u.fit (blockFit kept q) := by
  have hne : blockPoints kept q ≠ [] :=
    List.ne_nil_of_length_pos (by rw [length_blockPoints]; omega)
  have hinverse : u.work / u.time = 1 / (u.time / u.work) := (one_div_div u.time u.work).symm
  rw [blockFit, blockFit, fit, blockPoints_map, roundPoints_map, fittedLine_map u hne,
    slopeHalfWidth_map u hne, residualSum_map, residualSum_map, List.length_map, hinverse]
  simp only [line]
  rw [← mul_sub, ← mul_add, abs_reciprocals_sub u.slope_pos, one_div_mul_one_div]

theorem fitBlocks_map (hdiv : 3 ≤ kept.length / q) :
    Round.fitBlocks (kept.map u.round) q = u.ended u.fit (Round.fitBlocks kept q) := by
  have hne : blockPoints kept q ≠ [] :=
    List.ne_nil_of_length_pos (by rw [length_blockPoints]; omega)
  have hslope : 0 < u.time / u.work * Line.fittedSlope (blockPoints kept q) ↔
      0 < Line.fittedSlope (blockPoints kept q) := mul_pos_iff_of_pos_left u.slope_pos
  rw [fitBlocks_eq (by rwa [List.length_map]), fitBlocks_eq hdiv, blockPoints_map,
    fittedSlope_map u hne, blockFit_map u hdiv]
  simp only [coincide_abscissas_map, hslope]
  split
  · rfl
  · split
    · rfl
    · rfl

theorem fitKept?_map (hv : ∀ r ∈ kept, r.Valid) (limit : ℝ) :
    Round.fitKept? (kept.map u.round) limit = u.ended (Option.map u.fit) (Round.fitKept? kept limit) := by
  rw [Round.fitKept?, Round.fitKept?, List.length_map, rates_map]
  by_cases hlen : kept.length < 3
  · rw [if_pos hlen, if_pos hlen]
    rfl
  have hne : kept ≠ [] := List.ne_nil_of_length_pos (by omega)
  have haccepts := accepts_rates hne hv
  rw [if_neg hlen, if_neg hlen, blockSize?_map haccepts (u.rateUnit_suits _)]
  have htwo : 2 ≤ (kept.map Round.rate).length := by
    rw [List.length_map]
    omega
  by_cases hl : 0 ≤ limit
  · obtain ⟨r, hr, _⟩ := blockSize?_isLeastOf haccepts htwo rfl hl
    rw [hr, ok_bind, ok_bind]
    cases r with
    | none => rfl
    | some q =>
      show (if kept.length / q < 3 then _ else _) = u.ended _ (if kept.length / q < 3 then _ else _)
      by_cases hdiv : kept.length / q < 3
      · rw [if_pos hdiv, if_pos hdiv]
        rfl
      · rw [if_neg hdiv, if_neg hdiv, fitBlocks_map u (Nat.le_of_not_lt hdiv)]
        cases Round.fitBlocks kept q with
        | ok f => rfl
        | error e =>
          cases e with
          | invalid c => rfl
          | undefined c => rfl
  · rw [blockSize?_of_negative htwo hl]
    rfl

/-- **A fit does not depend on the units of work and time.** For every list of rounds and all
    options, the rounds in other units, with the threshold in the new unit of time, end in the same
    way: with no fit, with the fit taken to the new units, with the same broken rule, or with the
    same zero divisor. -/
theorem fit?_inUnits (u : RoundUnits) (rs : List (Round ℝ)) (o : FitOptions ℝ) :
    Round.fit? (rs.map u.round) (u.options o) = u.ended (Option.map u.fit) (Round.fit? rs o) := by
  rw [Round.fit?_eq_bind, Round.fit?_eq_bind, keptRounds_map, Round.checkAll, Round.checkAll,
    checkFrom_map]
  cases hcheck : Round.checkFrom 0 rs with
  | ok _ =>
    have hv := Round.checkAll_eq_ok_iff.mp hcheck
    exact u.fitKept?_map (fun r hr => hv r (mem_of_mem_keptRounds hr)) o.limit
  | error e =>
    cases e with
    | invalid c => rfl
    | undefined c => rfl

/-- Durations in seconds. -/
noncomputable def inSeconds : RoundUnits := ⟨1, 1 / 1000000000, one_pos, by norm_num⟩

/-- Four rounds have a fit, which is the same in seconds. -/
theorem fit?_inUnits_four :
    ∃ f, Round.fit? fourRounds fourOptions = .ok (some f) ∧ f.Recovers unitModel ∧
      Round.fit? (fourRounds.map inSeconds.round) (inSeconds.options fourOptions) =
        .ok (some (inSeconds.fit f)) := by
  obtain ⟨f, hf, hrecovers⟩ := fit?_four
  refine ⟨f, hf, hrecovers, ?_⟩
  rw [fit?_inUnits, hf]
  rfl

end RoundUnits
end BatchMeans.Throughput
