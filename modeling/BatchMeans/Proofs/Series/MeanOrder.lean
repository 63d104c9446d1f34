import Mathlib.Order.Bounds.Basic
import Mathlib.Data.Set.Finite.List
import BatchMeans.Proofs.Series.Moments

/- Means of positive readings lie between the least and the greatest, the harmonic one first.

   For positive readings with arithmetic mean `m`, the quotient `m / x` exceeds its
   tangent `2 - x / m` by the relative square `(x - m) ^ 2 / (x * m)`. Added up, the
   tangents give the number of readings, so the arithmetic mean over the harmonic
   one is one plus the mean of the relative squares (`arithmetic_div_harmonic`). These
   are not negative, and vanish together only when every reading is the mean: that is
   the inequality and its case of equality at once. The blocks of a series are
   series of positive readings, so it holds of each of them. -/
namespace BatchMeans.Series
variable {K : Type} [Field K] [LinearOrder K] [IsStrictOrderedRing K] {xs : List K} {m bound : K}
  {q : ℕ}

section Bounds
variable {β : Type} [LinearOrder β] {ys : List β}

theorem exists_isLeast (hne : ys ≠ []) : ∃ lo, IsLeast {y | y ∈ ys} lo := by
  obtain ⟨y, hy⟩ := List.exists_mem_of_ne_nil ys hne
  obtain ⟨lo, hlo, hle⟩ := Set.exists_min_image {y | y ∈ ys} id (List.finite_toSet ys) ⟨y, hy⟩
  exact ⟨lo, hlo, hle⟩

theorem exists_isGreatest (hne : ys ≠ []) : ∃ hi, IsGreatest {y | y ∈ ys} hi := by
  obtain ⟨y, hy⟩ := List.exists_mem_of_ne_nil ys hne
  obtain ⟨hi, hhi, hle⟩ := Set.exists_max_image {y | y ∈ ys} id (List.finite_toSet ys) ⟨y, hy⟩
  exact ⟨hi, hhi, hle⟩

end Bounds

theorem reduce_arithmetic_pos (hne : xs ≠ []) (hpos : ∀ x ∈ xs, 0 < x) :
    0 < MeanMethod.arithmetic.reduce xs := by
  rw [reduce_arithmetic]
  exact div_pos (List.sum_pos xs hpos hne) (length_cast_pos hne)

theorem reduce_arithmetic_le (hne : xs ≠ []) (h : ∀ x ∈ xs, x ≤ bound) :
    MeanMethod.arithmetic.reduce xs ≤ bound := by
  rw [reduce_arithmetic, div_le_iff₀ (length_cast_pos hne), mul_comm, ← nsmul_eq_mul]
  exact List.sum_le_card_nsmul xs bound h

/-! ## Relative squares -/

/-- The square of the distance of a reading from `m`, over both of them. -/
def relativeSquare (m x : K) : K := (x - m) ^ 2 / (x * m)

theorem relativeSquare_nonneg {x : K} (hm : 0 < m) (hx : 0 < x) : 0 ≤ relativeSquare m x :=
  div_nonneg (sq_nonneg _) (mul_pos hx hm).le

theorem relativeSquare_eq_zero_iff {x : K} (hm : 0 < m) (hx : 0 < x) : relativeSquare m x = 0 ↔ x = m := by
  rw [relativeSquare, div_eq_zero_iff, or_iff_left (mul_pos hx hm).ne', pow_eq_zero_iff two_ne_zero,
    sub_eq_zero]

omit [LinearOrder K] [IsStrictOrderedRing K] in
/-- A quotient lies above its tangent by the relative square. -/
theorem mul_one_div_eq_add_tangent {x : K} (hm : m ≠ 0) (hx : x ≠ 0) :
    m * (1 / x) = relativeSquare m x + (-(1 / m) * x + 2) := by
  rw [relativeSquare]
  field_simp
  ring

section Means
variable (hne : xs ≠ []) (hpos : ∀ x ∈ xs, 0 < x)
include hne hpos

/-- At the arithmetic mean the tangents add up to the number of the readings. -/
theorem reduce_mul_sum_reciprocals : MeanMethod.arithmetic.reduce xs * (xs.map fun x => 1 / x).sum =
    (xs.map (relativeSquare (MeanMethod.arithmetic.reduce xs))).sum + (xs.length : K) := by
  have hm := (reduce_arithmetic_pos hne hpos).ne'
  have hsum := sum_of_reduce xs
  set m := MeanMethod.arithmetic.reduce xs
  calc m * (xs.map fun x => 1 / x).sum
      = (xs.map fun x => relativeSquare m x + (-(1 / m) * x + 2)).sum := by
        rw [← List.sum_map_mul_left]
        exact congrArg List.sum
          (List.map_congr_left fun x hx => mul_one_div_eq_add_tangent hm (hpos x hx).ne')
    _ = (xs.map (relativeSquare m)).sum + (-(1 / m) * xs.sum + (xs.length : K) * 2) := by
        rw [List.sum_map_add, Exact.sum_map_affine, List.map_id']
    _ = (xs.map (relativeSquare m)).sum + (xs.length : K) := by
        rw [hsum]
        field_simp
        ring

/-- The arithmetic mean over the harmonic mean. -/
theorem arithmetic_div_harmonic :
    MeanMethod.arithmetic.reduce xs / MeanMethod.harmonic.reduce xs =
      (xs.map (relativeSquare (MeanMethod.arithmetic.reduce xs))).sum / (xs.length : K) + 1 := by
  have hlen : (xs.length : K) ≠ 0 := (length_cast_pos hne).ne'
  rw [reduce_harmonic, div_div_eq_mul_div, reduce_mul_sum_reciprocals hne hpos, add_div, div_self hlen]

theorem harmonic_le_arithmetic : MeanMethod.harmonic.reduce xs ≤ MeanMethod.arithmetic.reduce xs := by
  have hm := reduce_arithmetic_pos hne hpos
  rw [← one_le_div (reduce_harmonic_pos hne hpos), arithmetic_div_harmonic hne hpos]
  apply le_add_of_nonneg_left
  apply div_nonneg _ (Nat.cast_nonneg _)
  exact Exact.sum_map_nonneg fun x hx => relativeSquare_nonneg hm (hpos x hx)

/-- The relative squares vanish together only where every reading is the mean. -/
theorem harmonic_eq_arithmetic_iff :
    MeanMethod.harmonic.reduce xs = MeanMethod.arithmetic.reduce xs ↔ Coincide xs := by
  have hm := reduce_arithmetic_pos hne hpos
  have hlen : (xs.length : K) ≠ 0 := (length_cast_pos hne).ne'
  calc MeanMethod.harmonic.reduce xs = MeanMethod.arithmetic.reduce xs
      ↔ (xs.map (relativeSquare (MeanMethod.arithmetic.reduce xs))).sum = 0 := by
        rw [eq_comm, ← div_eq_one_iff_eq (reduce_harmonic_pos hne hpos).ne',
          arithmetic_div_harmonic hne hpos, add_eq_right, div_eq_zero_iff, or_iff_left hlen]
    _ ↔ ∀ x ∈ xs, x = MeanMethod.arithmetic.reduce xs := by
        rw [Exact.sum_map_eq_zero_iff fun x hx => relativeSquare_nonneg hm (hpos x hx)]
        exact forall₂_congr fun x hx => relativeSquare_eq_zero_iff hm (hpos x hx)
    _ ↔ Coincide xs := forall_eq_reduce_iff xs

end Means

/-- Blocks of positive readings: the harmonic mean of each is at most its arithmetic mean. -/
theorem forall₂_reduceBlocks (hpos : ∀ x ∈ xs, 0 < x) (hq : 1 ≤ q) :
    List.Forall₂ (· ≤ ·) (reduceBlocks xs q .harmonic) (reduceBlocks xs q .arithmetic) := by
  rw [reduceBlocks, reduceBlocks, List.forall₂_map_left_iff, List.forall₂_map_right_iff, List.forall₂_same]
  intro b hb
  apply harmonic_le_arithmetic (ne_nil_of_mem_blocks hq hb)
  exact fun x hx => hpos x (mem_of_mem_blocks hb hx)

/-- **Means of positive readings are ordered.** The least reading, the harmonic mean, the arithmetic mean
    and the greatest reading follow each other, the two means being equal only where all readings are;
    and block by block the harmonic means are at most the arithmetic ones. -/
theorem means_ordered (hne : xs ≠ []) (hpos : ∀ x ∈ xs, 0 < x) :
    (∃ lo hi h a, IsLeast {x | x ∈ xs} lo ∧ IsGreatest {x | x ∈ xs} hi ∧
      mean xs .harmonic = .ok h ∧ mean xs .arithmetic = .ok a ∧
      lo ≤ h ∧ h ≤ a ∧ a ≤ hi ∧ (h = a ↔ Coincide xs)) ∧
    ∀ q, 1 ≤ q → q ≤ xs.length → ∃ us vs, blockMeans xs q .harmonic = .ok us ∧
      blockMeans xs q .arithmetic = .ok vs ∧ us.length = xs.length / q ∧ List.Forall₂ (· ≤ ·) us vs := by
  have hrates : Accepts xs .harmonic := accepts_of_pos .harmonic hne hpos
  have htimes : Accepts xs .arithmetic := accepts_arithmetic hne
  obtain ⟨lo, hlo⟩ := exists_isLeast hne
  obtain ⟨hi, hhi⟩ := exists_isGreatest hne
  constructor
  · exact ⟨lo, hi, _, _, hlo, hhi, mean_eq_ok hrates, mean_eq_ok htimes,
      le_reduce_harmonic hne hpos fun x hx => hlo.2 hx, harmonic_le_arithmetic hne hpos,
      reduce_arithmetic_le hne fun x hx => hhi.2 hx, harmonic_eq_arithmetic_iff hne hpos⟩
  · intro q hq hn
    exact ⟨_, _, blockMeans_eq_ok hrates hq hn, blockMeans_eq_ok htimes hq hn,
      length_reduceBlocks xs q .harmonic, forall₂_reduceBlocks hpos hq⟩

/-- Five rates that differ: the two means lie strictly apart between one and five. In blocks of two the
    second block holds equal rates, and its means are equal. -/
theorem means_ordered_five :
    (∃ h a, mean [1, 3, 2, 2, (5 : ℚ)] .harmonic = .ok h ∧ mean [1, 3, 2, 2, (5 : ℚ)] .arithmetic = .ok a ∧
      1 ≤ h ∧ h < a ∧ a ≤ 5) ∧
    blockMeans [1, 3, 2, 2, (5 : ℚ)] 2 .harmonic = .ok [3 / 2, 2] ∧
    blockMeans [1, 3, 2, 2, (5 : ℚ)] 2 .arithmetic = .ok [2, 2] ∧
    List.Forall₂ (· ≤ ·) [3 / 2, (2 : ℚ)] [2, 2] := by
  have hpos : ∀ x ∈ [1, 3, 2, 2, (5 : ℚ)], 0 < x := by decide
  have hbounds : ∀ x ∈ [1, 3, 2, 2, (5 : ℚ)], 1 ≤ x ∧ x ≤ 5 := by decide
  have hleast : IsLeast {x | x ∈ [1, 3, 2, 2, (5 : ℚ)]} 1 := ⟨by simp, fun x hx => (hbounds x hx).1⟩
  have hgreatest : IsGreatest {x | x ∈ [1, 3, 2, 2, (5 : ℚ)]} 5 := ⟨by simp, fun x hx => (hbounds x hx).2⟩
  have hharmonic : blockMeans [1, 3, 2, 2, (5 : ℚ)] 2 .harmonic = .ok [3 / 2, 2] :=
    blockMeans_eq_ok_iff.mpr ⟨accepts_of_pos _ (by simp) hpos, by decide, by decide, by decide +kernel⟩
  have harithmetic : blockMeans [1, 3, 2, 2, (5 : ℚ)] 2 .arithmetic = .ok [2, 2] :=
    blockMeans_eq_ok_iff.mpr ⟨accepts_of_pos _ (by simp) hpos, by decide, by decide, by decide +kernel⟩
  obtain ⟨⟨lo, hi, h, a, hlo, hhi, hh, ha, hloh, hha, hahi, heq⟩, hblocks⟩ :=
    means_ordered (by simp) hpos
  obtain ⟨us, vs, hus, hvs, _, hle⟩ := hblocks 2 (by decide) (by decide)
  obtain rfl := hlo.unique hleast
  obtain rfl := hhi.unique hgreatest
  obtain rfl := Except.ok.inj (hus.symm.trans hharmonic)
  obtain rfl := Except.ok.inj (hvs.symm.trans harithmetic)
  have hdiffer : h ≠ a := mt heq.mp (by decide)
  exact ⟨⟨h, a, hh, ha, hloh, lt_of_le_of_ne hha hdiffer, hahi⟩, hharmonic, harithmetic, hle⟩

end BatchMeans.Series
