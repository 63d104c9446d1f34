import Mathlib.Tactic.LinearCombination
import BatchMeans.Proofs.Series.LeastBlockSize
import BatchMeans.Proofs.Series.Moments

/- Correlation coefficients lie strictly between minus one and one.

   Twice the sum of the squares, with the products of the values that lie `lag`
   apart added or taken away twice, is itself a sum of squares: those of the
   sums (or differences) of each pair, and those of the first and the last `lag`
   values (`two_mul_squareSum_add`). If it were zero, the first `lag` values
   would be at the centre, and each value there would put the one that lies
   `lag` after it there (`forall_of_take_of_pairs`), so nothing would vary. Hence
   the products stay strictly below the squares wherever there is a variance to
   divide by, around every centre. One is then a limit that the first size
   meets, and the coefficient of a size whose block means do not vary. -/
namespace BatchMeans.Series

/-! ## Pairs of values -/

section Pairs
variable {β : Type} {vs : List β} {lag : ℕ}

/-- Each value together with the one that lies `lag` after it. -/
def pairsApart (vs : List β) (lag : ℕ) : List (β × β) := vs.zip (vs.drop lag)

theorem map_fst_pairsApart (vs : List β) (lag : ℕ) :
    (pairsApart vs lag).map Prod.fst = vs.take (vs.length - lag) := by
  rw [pairsApart, List.zip_eq_zip_take_min, List.map_fst_zip (by simp), List.length_drop,
    Nat.min_eq_right (Nat.sub_le _ _)]

theorem map_snd_pairsApart (vs : List β) (lag : ℕ) :
    (pairsApart vs lag).map Prod.snd = vs.drop lag := by
  apply List.map_snd_zip
  simp

/-- What holds of the first `lag` values, and passes from each value to the one that lies `lag`
    after it, holds of all. -/
theorem forall_of_take_of_pairs {P : β → Prop} (hlag : 1 ≤ lag) (hfirst : ∀ v ∈ vs.take lag, P v)
    (hpair : ∀ p ∈ pairsApart vs lag, P p.1 → P p.2) : ∀ v ∈ vs, P v := by
  have hindex : ∀ i (hi : i < vs.length), P vs[i] := by
    intro i
    induction i using Nat.strong_induction_on with
    | _ i ih =>
      intro hi
      by_cases hil : i < lag
      · apply hfirst
        exact List.mem_iff_getElem.mpr ⟨i, by simp; omega, by simp⟩
      · have hprevious := ih (i - lag) (by omega) (by omega)
        have hmem : (vs[i - lag], vs[i]) ∈ pairsApart vs lag := by
          refine List.mem_iff_getElem.mpr ⟨i - lag, by simp [pairsApart]; omega, ?_⟩
          simp [pairsApart, show lag + (i - lag) = i by omega]
        exact hpair _ hmem hprevious
  intro v hv
  obtain ⟨i, hi, rfl⟩ := List.mem_iff_getElem.mp hv
  exact hindex i hi

end Pairs

variable {K : Type} [Field K] [LinearOrder K] [IsStrictOrderedRing K] {vs xs : List K}
  {lag q : ℕ} {c centre r s : K} {method : MeanMethod}

theorem crossSum_eq (pairs : List (K × K)) (c : K) :
    crossSum pairs c = (pairs.map fun p => (p.1 - c) * (p.2 - c)).sum := by
  rw [crossSum, Exact.sumBy_eq_sum]

theorem squareSum_append (vs ws : List K) (c : K) :
    squareSum (vs ++ ws) c = squareSum vs c + squareSum ws c := by
  simp [squareSum_eq]

theorem squareSum_take_add_drop (vs : List K) (n : ℕ) (c : K) :
    squareSum (vs.take n) c + squareSum (vs.drop n) c = squareSum vs c := by
  rw [← squareSum_append, List.take_append_drop]

/-- Values that are paired with themselves have their squares as products. -/
theorem crossSum_pairsApart_zero (vs : List K) (c : K) :
    crossSum (pairsApart vs 0) c = squareSum vs c := by
  have hself : vs.zip vs = vs.map fun v => (v, v) := by
    simpa using List.zip_map' (f := id) (g := id) (l := vs)
  rw [crossSum_eq, squareSum_eq, pairsApart, List.drop_zero, hself, List.map_map]
  exact congrArg List.sum (List.map_congr_left fun v _ => (sq (v - c)).symm)

/-! ## The bound -/

/-- The squares of the sums of the pairs, with the sign `s` on the second of each. -/
def pairSquares (vs : List K) (lag : ℕ) (c s : K) : K :=
  ((pairsApart vs lag).map fun p => ((p.1 - c) + s * (p.2 - c)) ^ 2).sum

theorem pairSquares_nonneg (vs : List K) (lag : ℕ) (c s : K) : 0 ≤ pairSquares vs lag c s :=
  Exact.sum_map_nonneg fun _ _ => sq_nonneg _

theorem pairSquares_eq (hs : s ^ 2 = 1) : pairSquares vs lag c s =
    squareSum (vs.take (vs.length - lag)) c + squareSum (vs.drop lag) c +
      2 * s * crossSum (pairsApart vs lag) c := by
  have hterm : ∀ p : K × K, ((p.1 - c) + s * (p.2 - c)) ^ 2 =
      (p.1 - c) ^ 2 + (p.2 - c) ^ 2 + 2 * s * ((p.1 - c) * (p.2 - c)) := by
    intro p
    linear_combination (p.2 - c) ^ 2 * hs
  have hfirst : ((pairsApart vs lag).map fun p => (p.1 - c) ^ 2).sum =
      squareSum (vs.take (vs.length - lag)) c := by
    rw [squareSum_eq, ← map_fst_pairsApart, List.map_map]
    rfl
  have hsecond : ((pairsApart vs lag).map fun p => (p.2 - c) ^ 2).sum =
      squareSum (vs.drop lag) c := by
    rw [squareSum_eq, ← map_snd_pairsApart, List.map_map]
    rfl
  rw [pairSquares, List.map_congr_left fun p _ => hterm p, List.sum_map_add, List.sum_map_add,
    List.sum_map_mul_left, hfirst, hsecond, crossSum_eq]

/-- The squares and the products, taken twice, are a sum of squares. -/
theorem two_mul_squareSum_add (vs : List K) (lag : ℕ) (c : K) (hs : s ^ 2 = 1) :
    2 * (squareSum vs c + s * crossSum (pairsApart vs lag) c) =
      pairSquares vs lag c s + squareSum (vs.take lag) c +
        squareSum (vs.drop (vs.length - lag)) c := by
  have hlast := squareSum_take_add_drop vs (vs.length - lag) c
  have hfirst := squareSum_take_add_drop vs lag c
  rw [pairSquares_eq hs]
  linear_combination -hlast - hfirst

/-- Where the values vary at all, the squares outweigh the products with either sign. -/
theorem squareSum_add_pos (hs : s ^ 2 = 1) (hlag : 1 ≤ lag) (hne : squareSum vs c ≠ 0) :
    0 < squareSum vs c + s * crossSum (pairsApart vs lag) c := by
  have hsum := two_mul_squareSum_add vs lag c hs
  have hpairs := pairSquares_nonneg vs lag c s
  have hfirst := squareSum_nonneg (vs.take lag) c
  have hlast := squareSum_nonneg (vs.drop (vs.length - lag)) c
  by_contra hle
  -- A sum of squares that is not positive is zero in each of its parts.
  have hpairs0 : pairSquares vs lag c s = 0 := by linarith
  have hfirst0 : squareSum (vs.take lag) c = 0 := by linarith
  apply hne
  rw [squareSum_eq_zero_iff] at hfirst0 ⊢
  apply forall_of_take_of_pairs hlag hfirst0
  intro p hp hp1
  have hzero : ((p.1 - c) + s * (p.2 - c)) ^ 2 = 0 :=
    (Exact.sum_map_eq_zero_iff fun _ _ => sq_nonneg _).mp hpairs0 p hp
  have hs0 : s ≠ 0 := by
    rintro rfl
    simp at hs
  rw [hp1, sub_self, zero_add, pow_eq_zero_iff two_ne_zero, mul_eq_zero_iff_left hs0] at hzero
  exact sub_eq_zero.mp hzero

/-- The products of values that lie apart are strictly below the squares. -/
theorem abs_crossSum_lt (hlag : 1 ≤ lag) (hne : squareSum vs c ≠ 0) :
    |crossSum (pairsApart vs lag) c| < squareSum vs c := by
  have hplus := squareSum_add_pos (s := 1) (one_pow 2) hlag hne
  have hminus := squareSum_add_pos (s := -1) (by ring) hlag hne
  rw [abs_lt]
  constructor <;> linarith

theorem abs_div_squareSum_lt_one (hlag : 1 ≤ lag) (hne : squareSum vs c ≠ 0) :
    |crossSum (pairsApart vs lag) c / squareSum vs c| < 1 := by
  have hpos : 0 < squareSum vs c := (squareSum_nonneg vs c).lt_of_ne' hne
  rw [abs_div, abs_of_pos hpos, div_lt_one hpos]
  exact abs_crossSum_lt hlag hne

/-! ## The coefficients -/

/-- The count of the pairs cancels between covariance and variance. -/
theorem coefficientOf_eq (hlen : 2 ≤ vs.length) :
    coefficientOf vs c = crossSum (pairsApart vs 1) c / squareSum vs c := by
  have hcount : ((vs.length - 1 : ℕ) : K) ≠ 0 := Nat.cast_ne_zero.mpr (by omega)
  rw [pairsApart, List.drop_one, coefficientOf, spread_eq]
  exact div_div_div_cancel_right₀ hcount _ _

theorem abs_blockAutocorrelation_lt_one (h : blockAutocorrelation xs q centre method = .ok r) :
    |r| < 1 := by
  obtain ⟨_, hq, _, hvariance, rfl⟩ := blockAutocorrelation_eq_ok_iff.mp h
  have hlen : 2 ≤ (reduceBlocks xs q method).length := by rwa [length_reduceBlocks]
  rw [Exact.isZero_iff, spread_eq_zero_iff hlen] at hvariance
  rw [coefficientOf_eq hlen]
  exact abs_div_squareSum_lt_one le_rfl hvariance

theorem abs_lagAutocorrelation_lt_one (hlag : 1 ≤ lag)
    (h : lagAutocorrelation xs lag centre = .ok r) : |r| < 1 := by
  obtain ⟨_, _, _, _, hvariance, rfl⟩ := lagAutocorrelation_eq_ok_iff.mp h
  rw [Exact.isZero_iff] at hvariance
  exact abs_div_squareSum_lt_one hlag hvariance

theorem lagAutocorrelation_zero (h : lagAutocorrelation xs 0 centre = .ok r) : r = 1 := by
  obtain ⟨_, _, _, _, hvariance, rfl⟩ := lagAutocorrelation_eq_ok_iff.mp h
  rw [Exact.isZero_iff] at hvariance
  show crossSum (pairsApart xs 0) centre / squareSum xs centre = 1
  rw [crossSum_pairsApart_zero, div_self hvariance]

/-- Around every centre a limit of one lets the first size qualify. -/
theorem qualifies_one (h : Accepts xs method) (hn : 2 ≤ xs.length) (centre : K) :
    Qualifies xs centre method 1 1 := by
  have hdiv : 2 ≤ xs.length / 1 := by rwa [Nat.div_one]
  refine ⟨le_rfl, hdiv, ?_⟩
  unfold effectiveCoefficient?
  cases hr : blockAutocorrelation xs 1 centre method with
  | ok r => exact ⟨|r|, rfl, (abs_blockAutocorrelation_lt_one hr).le⟩
  | error e =>
    -- The only refusal left is for block means that do not vary.
    rw [blockAutocorrelation_eq h hdiv rfl] at hr
    split at hr
    · cases hr
      exact ⟨1, rfl, le_rfl⟩
    · cases hr

theorem blockSize?_one (h : Accepts xs method) (hn : 2 ≤ xs.length) :
    blockSize? xs method 1 = .ok (some 1) := by
  rw [blockSize?_eq_some_iff h hn rfl zero_le_one]
  exact ⟨qualifies_one h hn _, fun q hq => hq.1⟩

/-- Readings that vary need no blocks when their own coefficient is within the limit. -/
theorem isLeast_one {limit : K} (h : Accepts xs method) (hn : 2 ≤ xs.length)
    (hspread : spread xs centre ≠ 0) (hcoefficient : |coefficientOf xs centre| ≤ limit) :
    IsLeast {q | Qualifies xs centre method limit q} 1 := by
  have hdiv : 2 ≤ xs.length / 1 := by rwa [Nat.div_one]
  have hvary : ¬ Arith.IsZero (spread (reduceBlocks xs 1 method) centre) := by
    rw [reduceBlocks_one, Exact.isZero_iff]
    exact hspread
  refine ⟨(qualifies_iff h hdiv rfl hvary).mpr ?_, fun q hq => hq.1⟩
  rw [reduceBlocks_one]
  exact hcoefficient

/-- **Correlation coefficients lie strictly between minus one and one.** Around every centre this
    holds of the coefficient between blocks of any size and between readings of any lag but zero,
    where it is one. So with a limit of one the first size is found for every series of two readings
    or more, whatever the centre; and the one that stands for block means that do not vary is more
    than any coefficient that is measured. -/
theorem abs_coefficient_lt_one (xs : List K) (method : MeanMethod) :
    (∀ centre q r, blockAutocorrelation xs q centre method = .ok r → |r| < 1) ∧
    (∀ centre lag r, lagAutocorrelation xs lag centre = .ok r →
      (1 ≤ lag → |r| < 1) ∧ (lag = 0 → r = 1)) ∧
    (Accepts xs method → 2 ≤ xs.length →
      (∀ centre, Qualifies xs centre method 1 1) ∧ blockSize? xs method 1 = .ok (some 1)) ∧
    ∀ centre q cause, blockAutocorrelation xs q centre method = .error (.undefined cause) →
      judgedCoefficient xs q centre method = .ok 1 ∧
        ∀ q' r, blockAutocorrelation xs q' centre method = .ok r →
          judgedCoefficient xs q' centre method = .ok r ∧ |r| < |1| := by
  refine ⟨fun _ _ _ => abs_blockAutocorrelation_lt_one, ?_, ?_, ?_⟩
  · intro centre lag r hr
    refine ⟨fun hlag => abs_lagAutocorrelation_lt_one hlag hr, ?_⟩
    rintro rfl
    exact lagAutocorrelation_zero hr
  · intro h hn
    exact ⟨qualifies_one h hn, blockSize?_one h hn⟩
  · intro centre q cause hzero
    refine ⟨by rw [judgedCoefficient, hzero], ?_⟩
    intro q' r hr
    refine ⟨by rw [judgedCoefficient, hr], ?_⟩
    rw [abs_one]
    exact abs_blockAutocorrelation_lt_one hr

/-- Alternating pairs of readings: single readings are correlated by less than one, readings are fully
    correlated with themselves, and blocks of two do not vary. -/
theorem abs_coefficient_lt_one_alternating :
    ∃ r, blockAutocorrelation [1, 3, 1, (3 : ℚ)] 1 2 .arithmetic = .ok r ∧ |r| < 1 ∧
      (∃ r₀, lagAutocorrelation [1, 3, 1, (3 : ℚ)] 0 2 = .ok r₀ ∧ r₀ = 1) ∧
      blockSize? [1, 3, 1, (3 : ℚ)] .arithmetic 1 = .ok (some 1) ∧
      judgedCoefficient [1, 3, 1, (3 : ℚ)] 2 2 .arithmetic = .ok 1 := by
  have haccepts : Accepts [1, 3, 1, (3 : ℚ)] .arithmetic := accepts_arithmetic (by simp)
  have hunit : blockAutocorrelation [1, 3, 1, (3 : ℚ)] 1 2 .arithmetic = .ok (-3 / 4) := by
    rw [blockAutocorrelation_eq_ok_iff]
    exact ⟨haccepts, by decide, rfl, by decide +kernel, by decide +kernel⟩
  have hself : lagAutocorrelation [1, 3, 1, (3 : ℚ)] 0 2 = .ok 1 := by
    rw [lagAutocorrelation_eq_ok_iff]
    exact ⟨by simp, fun _ _ => rfl, by decide, rfl, by decide +kernel, by decide +kernel⟩
  have hpairs : blockAutocorrelation [1, 3, 1, (3 : ℚ)] 2 2 .arithmetic =
      .error (.undefined (.zeroBlockVariance 2 2)) := by
    rw [blockAutocorrelation_eq haccepts (by decide) rfl, if_pos (by decide +kernel)]
  obtain ⟨hblock, hlag, hsize, hjudged⟩ := abs_coefficient_lt_one [1, 3, 1, (3 : ℚ)] .arithmetic
  exact ⟨_, hunit, hblock _ _ _ hunit, ⟨_, hself, (hlag _ _ _ hself).2 rfl⟩,
    (hsize haccepts (by decide)).2, (hjudged _ _ _ hpairs).1⟩

end BatchMeans.Series
