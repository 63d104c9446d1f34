import BatchMeans.Proofs.Series.Moments
import BatchMeans.Throughput.Line

/- The line through points that lie on a line.

   In exact numbers the products of the distances from the two means are then
   the slope times the squares of the abscissas (`crossProducts_of_through`), so the
   regression divides these squares out again and gives the line back. It has
   no slope only where the abscissas are all equal. -/
namespace BatchMeans.Throughput.Line
open Series
variable {K : Type}

abbrev abscissas (points : List (K × K)) : List K := points.map (·.1)

abbrev ordinates (points : List (K × K)) : List K := points.map (·.2)

variable [Field K] [LinearOrder K] [IsStrictOrderedRing K] {l : Line K} {points : List (K × K)}

/-- Every point lies on the line. -/
def Through (l : Line K) (points : List (K × K)) : Prop := ∀ p ∈ points, p.2 = l.valueAt p.1

theorem valueAt_eq (l : Line K) (x : K) : l.valueAt x = l.intercept + l.slope * x := rfl

theorem residualSum_eq_zero_iff : l.residualSum points = 0 ↔ l.Through points := by
  rw [residualSum, Exact.sumBy_eq_zero_iff points fun _ => Exact.square_nonneg _]
  simp only [Exact.square_eq, pow_eq_zero_iff two_ne_zero, sub_eq_zero, Through]
  exact forall₂_congr fun p _ => eq_comm

/-! ## The regression -/

/-- The products of the distances from the two means, added up. -/
def crossProducts (points : List (K × K)) : K :=
  Arith.sumBy (fun p : K × K => (p.1 - MeanMethod.arithmetic.reduce (abscissas points)) *
    (p.2 - MeanMethod.arithmetic.reduce (ordinates points))) points

/-- The slope that the regression gives. -/
def fittedSlope (points : List (K × K)) : K :=
  crossProducts points / ((points.length - 1 : ℕ) : K) /
    spread (abscissas points) (MeanMethod.arithmetic.reduce (abscissas points))

/-- The line with that slope through the point of the two means. -/
def fittedLine (points : List (K × K)) : Line K where
  intercept := MeanMethod.arithmetic.reduce (ordinates points) -
    fittedSlope points * MeanMethod.arithmetic.reduce (abscissas points)
  slope := fittedSlope points

theorem leastSquares_eq (hn : 2 ≤ points.length) :
    leastSquares (abscissas points) (ordinates points) =
      if Coincide (abscissas points) then .error (.undefined .equalAbscissas)
      else .ok (fittedLine points) := by
  have hxs : 2 ≤ (abscissas points).length := by simpa using hn
  have hys : 2 ≤ (ordinates points).length := by simpa using hn
  have hlen : (abscissas points).length = (ordinates points).length := by simp
  have hzero : Arith.IsZero (spread (abscissas points)
      (MeanMethod.arithmetic.reduce (abscissas points))) ↔ Coincide (abscissas points) := by
    rw [Exact.isZero_iff, spread_reduce_eq_zero_iff hxs]
  have hmean : ∀ {xs : List K}, 2 ≤ xs.length →
      mean xs .arithmetic = .ok (MeanMethod.arithmetic.reduce xs) := by
    intro xs h
    exact mean_arithmetic_eq_ok (List.ne_nil_of_length_pos (by omega))
  rw [leastSquares, require_of hlen, ok_bind, require_of hxs, ok_bind, hmean hxs, ok_bind,
    hmean hys, ok_bind, blockVariance_one_eq_ok hxs, ok_bind]
  simp only [hzero, List.zip_map', List.map_id', List.length_map]
  rfl

/-! ## Points of one line -/

theorem reduce_ordinates (h : l.Through points) (hne : points ≠ []) :
    MeanMethod.arithmetic.reduce (ordinates points) =
      l.valueAt (MeanMethod.arithmetic.reduce (abscissas points)) := by
  have hpoint : ∀ p ∈ points, p.2 = l.slope * p.1 + l.intercept := by
    intro p hp
    rw [h p hp, valueAt_eq, add_comm]
  rw [ordinates, List.map_congr_left hpoint, reduce_map_affine l.slope l.intercept _ hne, valueAt_eq,
    add_comm]

theorem crossProducts_of_through (h : l.Through points) (hne : points ≠ []) :
    crossProducts points =
      l.slope * squareSum (abscissas points) (MeanMethod.arithmetic.reduce (abscissas points)) := by
  have hmean := reduce_ordinates h hne
  set m := MeanMethod.arithmetic.reduce (abscissas points) with hm
  have hterm : ∀ p ∈ points, (p.1 - m) * (p.2 - l.valueAt m) = l.slope * (p.1 - m) ^ 2 := by
    intro p hp
    rw [h p hp, valueAt_eq, valueAt_eq]
    ring
  rw [crossProducts, hmean, ← hm, Exact.sumBy_eq_sum, List.map_congr_left hterm, List.sum_map_mul_left,
    squareSum_eq, abscissas, List.map_map]
  rfl

theorem fittedSlope_of_through (h : l.Through points) (hn : 2 ≤ points.length)
    (hne : ¬ Coincide (abscissas points)) : fittedSlope points = l.slope := by
  have hspread : spread (abscissas points) (MeanMethod.arithmetic.reduce (abscissas points)) ≠ 0 :=
    mt (spread_reduce_eq_zero_iff (by simpa using hn)).mp hne
  rw [fittedSlope, crossProducts_of_through h (List.ne_nil_of_length_pos (by omega)), mul_div_assoc,
    ← List.length_map (fun p : K × K => p.1), ← spread_eq, mul_div_cancel_right₀ _ hspread]

/-- **The regression gives the line back** from two of its points or more, unless their abscissas
    are all equal. -/
theorem fittedLine_of_through (h : l.Through points) (hn : 2 ≤ points.length)
    (hne : ¬ Coincide (abscissas points)) : fittedLine points = l := by
  rw [fittedLine, fittedSlope_of_through h hn hne,
    reduce_ordinates h (List.ne_nil_of_length_pos (by omega)), valueAt_eq, add_sub_cancel_right]

end BatchMeans.Throughput.Line
