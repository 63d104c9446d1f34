import Mathlib.Tactic.LinearCombination
import BatchMeans.Proofs.Throughput.LeastSquares

/- No line comes closer to the points than the one that the regression gives.

   The residuals of the fitted line are balanced: they add up to zero, and so do
   their products with the abscissas (`normalEquations_fittedLine`). The squared
   residuals of any other line then exceed those of the fitted line by the squared
   distances between the two lines (`NormalEquations.residualSum_eq_add`). Two
   lines meet in one point at most, so this is more than zero as soon as two
   abscissas differ (`distanceSum_pos`). When all abscissas are equal there is no such
   line, and the regression is refused. -/
namespace BatchMeans.Throughput.Line
open Series
variable {K : Type} {xs ys : List K}

/-! ## Two columns as points -/

theorem abscissas_zip (hlen : xs.length = ys.length) : abscissas (xs.zip ys) = xs :=
  List.map_fst_zip hlen.le

theorem ordinates_zip (hlen : xs.length = ys.length) : ordinates (xs.zip ys) = ys :=
  List.map_snd_zip hlen.ge

theorem length_zip_of_eq (hlen : xs.length = ys.length) : (xs.zip ys).length = xs.length := by
  rw [List.length_zip, ← hlen, Nat.min_self]

/-! ## Residuals -/

variable [Field K] [LinearOrder K] [IsStrictOrderedRing K] {l l' : Line K} {points : List (K × K)}

/-- How far a point lies above the line. -/
def residual (l : Line K) (p : K × K) : K := p.2 - l.valueAt p.1

/-- The residuals add up to zero, and so do their products with the abscissas. -/
structure NormalEquations (l : Line K) (points : List (K × K)) : Prop where
  sum_residual : (points.map l.residual).sum = 0
  sum_residual_mul : (points.map fun p => l.residual p * p.1).sum = 0

/-- Every other line has larger squared residuals. -/
def Closest (l : Line K) (points : List (K × K)) : Prop :=
  ∀ l', l' ≠ l → l.residualSum points < l'.residualSum points

theorem Closest.unique (h : l.Closest points) (h' : l'.Closest points) : l = l' := by
  by_contra hne
  exact lt_asymm (h l' (Ne.symm hne)) (h' l hne)

theorem residualSum_eq (l : Line K) (points : List (K × K)) :
    l.residualSum points = (points.map fun p => l.residual p ^ 2).sum := by
  rw [residualSum, Exact.sumBy_eq_sum]
  apply congrArg List.sum
  apply List.map_congr_left
  intro p _
  rw [Exact.square_eq, residual, sub_sq_comm]

theorem residualSum_nonneg (l : Line K) (points : List (K × K)) : 0 ≤ l.residualSum points :=
  Exact.sumBy_nonneg points fun _ => Exact.square_nonneg _

/-! ## Two lines -/

/-- The squared distances between two lines at the abscissas, added up. -/
def distanceSum (l l' : Line K) (points : List (K × K)) : K :=
  (points.map fun p => (l.valueAt p.1 - l'.valueAt p.1) ^ 2).sum

/-- The squared residuals of another line are those of a balanced one and the squared distances
    between the two. -/
theorem NormalEquations.residualSum_eq_add (h : l.NormalEquations points) (l' : Line K) :
    l'.residualSum points = l.residualSum points + distanceSum l l' points := by
  set a := 2 * (l.intercept - l'.intercept)
  set b := 2 * (l.slope - l'.slope)
  have hterm : ∀ p : K × K, l'.residual p ^ 2 =
      l.residual p ^ 2 + (l.valueAt p.1 - l'.valueAt p.1) ^ 2 +
        (a * l.residual p + b * (l.residual p * p.1)) := by
    intro p
    simp only [residual, valueAt_eq, a, b]
    ring
  -- The mixed terms are made of the two sums that vanish.
  have hmixed : (points.map fun p => a * l.residual p + b * (l.residual p * p.1)).sum = 0 := by
    rw [List.sum_map_add, List.sum_map_mul_left, List.sum_map_mul_left, h.sum_residual,
      h.sum_residual_mul, mul_zero, mul_zero, add_zero]
  rw [residualSum_eq, residualSum_eq, List.map_congr_left fun p _ => hterm p, List.sum_map_add, hmixed,
    add_zero, List.sum_map_add, distanceSum]

/-- Two lines that agree at different abscissas are one line. -/
theorem eq_of_valueAt_eq {x y : K} (hne : x ≠ y) (hx : l.valueAt x = l'.valueAt x)
    (hy : l.valueAt y = l'.valueAt y) : l = l' := by
  obtain ⟨a, b⟩ := l
  obtain ⟨a', b'⟩ := l'
  simp only [valueAt_eq] at hx hy
  have hproduct : (b - b') * (x - y) = 0 := by linear_combination hx - hy
  have hslope : b = b' :=
    sub_eq_zero.mp ((mul_eq_zero.mp hproduct).resolve_right (sub_ne_zero.mpr hne))
  have hintercept : a = a' := by
    rw [hslope] at hx
    exact add_right_cancel hx
  rw [hslope, hintercept]

theorem distanceSum_pos (hne : l' ≠ l) (hx : ¬ Coincide (abscissas points)) :
    0 < distanceSum l l' points := by
  have hnonneg : ∀ p : K × K, 0 ≤ (l.valueAt p.1 - l'.valueAt p.1) ^ 2 := fun _ => sq_nonneg _
  rw [distanceSum, ← Exact.sumBy_eq_sum]
  refine (Exact.sumBy_nonneg points hnonneg).lt_of_ne' fun hzero => hx ?_
  have hmeet := (Exact.sumBy_eq_zero_iff points hnonneg).mp hzero
  intro x hx y hy
  obtain ⟨p, hp, rfl⟩ := List.mem_map.mp hx
  obtain ⟨p', hp', rfl⟩ := List.mem_map.mp hy
  by_contra hdiffer
  refine hne (eq_of_valueAt_eq hdiffer ?_ ?_).symm
  · exact sub_eq_zero.mp (pow_eq_zero_iff two_ne_zero |>.mp (hmeet p hp))
  · exact sub_eq_zero.mp (pow_eq_zero_iff two_ne_zero |>.mp (hmeet p' hp'))

theorem NormalEquations.closest (h : l.NormalEquations points) (hx : ¬ Coincide (abscissas points)) :
    l.Closest points := by
  intro l' hne
  rw [h.residualSum_eq_add l']
  exact lt_add_of_pos_right _ (distanceSum_pos hne hx)

/-- A line that all points lie on is the closest. -/
theorem Closest.eq_of_through (h : l.Closest points) (h' : l'.Through points) : l = l' := by
  by_contra hne
  have hlt := h l' (Ne.symm hne)
  rw [residualSum_eq_zero_iff.mpr h'] at hlt
  exact hlt.not_ge (residualSum_nonneg l points)

/-! ## The fitted line -/

/-- The slope times the squares of the abscissas around their mean is what the slope was made
    from. -/
theorem fittedSlope_mul_squareSum (hn : 2 ≤ points.length) (hx : ¬ Coincide (abscissas points)) :
    fittedSlope points * squareSum (abscissas points)
      (MeanMethod.arithmetic.reduce (abscissas points)) = crossProducts points := by
  have hlen : (abscissas points).length = points.length := List.length_map _
  have hcount : ((points.length - 1 : ℕ) : K) ≠ 0 := Nat.cast_ne_zero.mpr (by omega)
  have hsquares : squareSum (abscissas points)
      (MeanMethod.arithmetic.reduce (abscissas points)) ≠ 0 := by
    have hspread := mt (spread_reduce_eq_zero_iff (by rwa [hlen])).mp hx
    rw [spread_eq, div_eq_zero_iff, not_or] at hspread
    exact hspread.1
  rw [fittedSlope, spread_eq, hlen]
  field_simp

theorem normalEquations_fittedLine (hn : 2 ≤ points.length) (hx : ¬ Coincide (abscissas points)) :
    (fittedLine points).NormalEquations points := by
  have hslope := fittedSlope_mul_squareSum hn hx
  have hxs := sum_sub_reduce (abscissas points)
  have hys := sum_sub_reduce (ordinates points)
  rw [crossProducts, Exact.sumBy_eq_sum, squareSum_eq, List.map_map] at hslope
  rw [List.map_map] at hxs hys
  set mx := MeanMethod.arithmetic.reduce (abscissas points) with hmx
  set my := MeanMethod.arithmetic.reduce (ordinates points) with hmy
  set b := fittedSlope points with hb
  -- The fitted line passes through the point of the two means.
  have hresidual : ∀ p : K × K,
      (fittedLine points).residual p = (p.2 - my) + -b * (p.1 - mx) := by
    intro p
    rw [residual, valueAt_eq, fittedLine, ← hmx, ← hmy, ← hb]
    ring
  have hsum : (points.map (fittedLine points).residual).sum = 0 := by
    rw [List.map_congr_left fun p _ => hresidual p, List.sum_map_add, List.sum_map_mul_left]
    exact (congrArg₂ (fun s t => s + -b * t) hys hxs).trans (by rw [mul_zero, add_zero])
  refine ⟨hsum, ?_⟩
  have hproduct : ∀ p : K × K, (fittedLine points).residual p * p.1 =
      (p.1 - mx) * (p.2 - my) + -b * (p.1 - mx) ^ 2 + mx * (fittedLine points).residual p := by
    intro p
    rw [hresidual]
    ring
  rw [List.map_congr_left fun p _ => hproduct p, List.sum_map_add, List.sum_map_add,
    List.sum_map_mul_left, List.sum_map_mul_left, hsum, mul_zero, add_zero, ← hslope, neg_mul]
  exact add_neg_cancel _

theorem closest_fittedLine (hn : 2 ≤ points.length) (hx : ¬ Coincide (abscissas points)) :
    (fittedLine points).Closest points :=
  (normalEquations_fittedLine hn hx).closest hx

/-! ## The regression -/

theorem leastSquares_of_bad_lengths (h : xs.length ≠ ys.length ∨ xs.length < 2) :
    ∃ cause, leastSquares xs ys = .error (.invalid cause) := by
  by_cases hlen : xs.length = ys.length
  · have hn : ¬ 2 ≤ xs.length := (h.resolve_left (not_not_intro hlen)).not_ge
    rw [leastSquares, require_of hlen, ok_bind, require_of_not hn]
    exact ⟨_, rfl⟩
  · rw [leastSquares, require_of_not hlen]
    exact ⟨_, rfl⟩

theorem leastSquares_eq_zip (hlen : xs.length = ys.length) (hn : 2 ≤ xs.length) :
    leastSquares xs ys =
      if Coincide xs then .error (.undefined .equalAbscissas) else .ok (fittedLine (xs.zip ys)) := by
  have htwo : 2 ≤ (xs.zip ys).length := by rwa [length_zip_of_eq hlen]
  have h := leastSquares_eq htwo
  rwa [abscissas_zip hlen, ordinates_zip hlen] at h

/-- **The regression is ordinary least squares.** It breaks a rule for two columns of different
    lengths or with fewer than two entries, it has a zero divisor when the abscissas of such
    columns are all equal, and otherwise it gives a line that satisfies the normal equations and
    that every other line stays behind in squared residuals; points of one line give that line. -/
theorem leastSquares_minimal (xs ys : List K) :
    ((∃ cause, leastSquares xs ys = .error (.invalid cause)) ↔
      xs.length ≠ ys.length ∨ xs.length < 2) ∧
    ((∃ cause, leastSquares xs ys = .error (.undefined cause)) ↔
      xs.length = ys.length ∧ 2 ≤ xs.length ∧ Coincide xs) ∧
    (xs.length = ys.length → 2 ≤ xs.length → ¬ Coincide xs →
      ∃ l, leastSquares xs ys = .ok l ∧ l.NormalEquations (xs.zip ys) ∧
        (∀ l', l' ≠ l → l.residualSum (xs.zip ys) < l'.residualSum (xs.zip ys)) ∧
        ∀ l', l'.Through (xs.zip ys) → l = l') := by
  by_cases hbad : xs.length ≠ ys.length ∨ xs.length < 2
  · obtain ⟨cause, hcause⟩ := leastSquares_of_bad_lengths hbad
    refine ⟨⟨fun _ => hbad, fun _ => ⟨cause, hcause⟩⟩, ?_, ?_⟩
    · rw [hcause]
      constructor
      · rintro ⟨_, h⟩
        cases h
      · rintro ⟨hlen, hn, _⟩
        omega
    · intro hlen hn
      omega
  · obtain ⟨hlen, hn⟩ : xs.length = ys.length ∧ 2 ≤ xs.length := by omega
    rw [leastSquares_eq_zip hlen hn]
    by_cases hall : Coincide xs
    · rw [if_pos hall]
      refine ⟨⟨fun ⟨_, h⟩ => (nomatch h), fun h => absurd h hbad⟩, ?_, ?_⟩
      · exact ⟨fun _ => ⟨hlen, hn, hall⟩, fun _ => ⟨_, rfl⟩⟩
      · exact fun _ _ hne => absurd hall hne
    · rw [if_neg hall]
      refine ⟨⟨fun ⟨_, h⟩ => (nomatch h), fun h => absurd h hbad⟩,
        ⟨fun ⟨_, h⟩ => (nomatch h), fun h => absurd h.2.2 hall⟩, fun _ _ _ => ?_⟩
      have hx : ¬ Coincide (abscissas (xs.zip ys)) := by rwa [abscissas_zip hlen]
      have htwo : 2 ≤ (xs.zip ys).length := by rwa [length_zip_of_eq hlen]
      have hclosest := closest_fittedLine htwo hx
      exact ⟨_, rfl, normalEquations_fittedLine htwo hx, hclosest, fun _ => hclosest.eq_of_through⟩

/-- Three points that no line goes through: the regression gives one line, and every other has larger
    squared residuals. -/
theorem leastSquares_minimal_three :
    ¬ Coincide [1, 2, (4 : ℚ)] ∧ ∃ l, leastSquares [1, 2, (4 : ℚ)] [3, 5, 4] = .ok l ∧
      l.NormalEquations [(1, 3), (2, 5), (4, 4)] ∧
      ∀ l', l' ≠ l →
        l.residualSum [(1, 3), (2, 5), (4, 4)] < l'.residualSum [(1, 3), (2, 5), (4, 4)] := by
  have hne : ¬ Coincide [1, 2, (4 : ℚ)] := by norm_num [Coincide]
  obtain ⟨l, hl, hnormal, hclosest, _⟩ :=
    (leastSquares_minimal [1, 2, (4 : ℚ)] [3, 5, 4]).2.2 rfl (by simp) hne
  exact ⟨hne, l, hl, hnormal, hclosest⟩

end BatchMeans.Throughput.Line
