import Mathlib.Data.List.Perm.Basic
import BatchMeans.Proofs.Series.CorrelationBound

/- Coefficients between single readings: at a lag of one, and over all lags.

   Blocks of one reading are the readings, and one count divides their covariance
   and their variance, so the coefficient of that size is the one at a lag of one
   (`coefficientOf_eq`). The two are refused alike as well, as two blocks of one
   reading fit exactly when one is a lag within the series.

   Over all lags every reading meets each later one exactly once (`laggedPairs_perm`),
   by induction on the series: a reading put in front meets each of the others at
   one lag, and the pairs of the others keep theirs. The square of a sum is the sum of
   the squares and twice the products of these pairs (`sum_map_sq`), which gives the sum
   of all coefficients; around the mean the sum that is squared vanishes. -/
namespace BatchMeans.Series

/-! ## A lag of one -/

section LagOne
variable {K : Type} [Field K] [LinearOrder K] [IsStrictOrderedRing K] {xs : List K} {c : K}
  {lag : ℕ}

theorem lagAutocorrelation_invalid_iff :
    (∃ cause, lagAutocorrelation xs lag c = .error (.invalid cause)) ↔ xs.length ≤ lag := by
  rw [← not_admissible_iff, ← not_lt, not_iff_not]
  constructor
  · intro h
    exact (lagAutocorrelation_admissible h).2.2.1
  · intro hlag
    have hne : xs ≠ [] := List.ne_nil_of_length_pos (by omega)
    rw [lagAutocorrelation_eq hne (fun _ _ => rfl) hlag rfl]
    split
    · exact .of_undefined rfl
    · exact .of_ok rfl

theorem lagAutocorrelation_undefined_iff :
    (∃ cause, lagAutocorrelation xs lag c = .error (.undefined cause)) ↔
      lag < xs.length ∧ ∀ x ∈ xs, x = c := by
  rw [← squareSum_eq_zero_iff, ← Exact.isZero_iff]
  constructor
  · rintro ⟨cause, h⟩
    obtain ⟨hne, hf, hlag, hc⟩ := lagAutocorrelation_admissible (.of_undefined h)
    rw [lagAutocorrelation_eq hne hf hlag hc] at h
    split at h
    · next hzero => exact ⟨hlag, hzero⟩
    · cases h
  · rintro ⟨hlag, hzero⟩
    have hne : xs ≠ [] := List.ne_nil_of_length_pos (by omega)
    rw [lagAutocorrelation_eq hne (fun _ _ => rfl) hlag rfl, if_pos hzero]
    exact ⟨_, rfl⟩

theorem endAlike_one (method : MeanMethod) (hnz : method = .harmonic → ∀ x ∈ xs, x ≠ 0) (c : K) :
    EndAlike (blockAutocorrelation xs 1 c method) (lagAutocorrelation xs 1 c) := by
  by_cases hn : 2 ≤ xs.length
  · have hne : xs ≠ [] := List.ne_nil_of_length_pos (by omega)
    have hblocks : 2 ≤ xs.length / 1 := by rwa [Nat.div_one]
    have hzero : Arith.IsZero (spread xs c) ↔ Arith.IsZero (squareSum xs c) := by
      rw [Exact.isZero_iff, Exact.isZero_iff, spread_eq_zero_iff hn]
    rw [blockAutocorrelation_eq (accepts_of_ne_zero hne hnz) hblocks rfl, reduceBlocks_one,
      lagAutocorrelation_eq hne (fun _ _ => rfl) hn rfl]
    by_cases hz : Arith.IsZero (squareSum xs c)
    · rw [if_pos (hzero.mpr hz), if_pos hz]
      exact .undefined _ _
    · rw [if_neg (mt hzero.mp hz), if_neg hz, coefficientOf_eq hn]
      exact .value _
  · -- Neither two blocks nor a lag of one fit into the series.
    have hfew : ¬ Admissible (blockAutocorrelation xs 1 c method) := by
      intro h
      have hblocks := (blockAutocorrelation_admissible h).2.1
      rw [Nat.div_one] at hblocks
      exact hn hblocks
    obtain ⟨cause, hblock⟩ := not_admissible_iff.mp hfew
    obtain ⟨cause', hlag⟩ := lagAutocorrelation_invalid_iff.mpr (Nat.le_of_lt_succ (Nat.lt_of_not_le hn))
    rw [hblock, hlag]
    exact .invalid _ _

/-- **The coefficient of blocks of one reading is the one at a lag of one.** Around every centre both are
    given, with one value, both break a rule, or both lack a value: the last where there are two readings or
    more and all are the centre. Harmonic means of one reading are the reading, so with these the same
    holds of readings other than zero. -/
theorem blockAutocorrelation_one_eq_lag_one (xs : List K) (c : K) :
    EndAlike (blockAutocorrelation xs 1 c .arithmetic) (lagAutocorrelation xs 1 c) ∧
    ((∀ x ∈ xs, x ≠ 0) → EndAlike (blockAutocorrelation xs 1 c .harmonic) (lagAutocorrelation xs 1 c)) ∧
    ((∃ cause, lagAutocorrelation xs 1 c = .error (.invalid cause)) ↔ xs.length < 2) ∧
    ((∃ cause, lagAutocorrelation xs 1 c = .error (.undefined cause)) ↔
      2 ≤ xs.length ∧ ∀ x ∈ xs, x = c) := by
  refine ⟨?_, ?_, ?_, ?_⟩
  · exact endAlike_one .arithmetic (fun hm => nomatch hm) c
  · intro hnz
    exact endAlike_one .harmonic (fun _ => hnz) c
  · rw [lagAutocorrelation_invalid_iff, Nat.lt_succ_iff]
  · exact lagAutocorrelation_undefined_iff

/-- Three rates around three have one coefficient by either definition; two readings at the centre have none. -/
theorem blockAutocorrelation_one_eq_lag_one_three :
    lagAutocorrelation [1, 2, (4 : ℚ)] 1 3 = .ok (1 / 6) ∧
    blockAutocorrelation [1, 2, (4 : ℚ)] 1 3 .arithmetic = .ok (1 / 6) ∧
    blockAutocorrelation [1, 2, (4 : ℚ)] 1 3 .harmonic = .ok (1 / 6) ∧
    ∃ cause, lagAutocorrelation [3, (3 : ℚ)] 1 3 = .error (.undefined cause) := by
  have hlag : lagAutocorrelation [1, 2, (4 : ℚ)] 1 3 = .ok (1 / 6) := by
    rw [lagAutocorrelation_eq_ok_iff]
    exact ⟨by simp, fun _ _ => rfl, by decide, rfl, by decide +kernel, by decide +kernel⟩
  obtain ⟨harithmetic, hharmonic, _, _⟩ := blockAutocorrelation_one_eq_lag_one [1, 2, (4 : ℚ)] 3
  obtain ⟨_, _, _, hequal⟩ := blockAutocorrelation_one_eq_lag_one [3, (3 : ℚ)] 3
  exact ⟨hlag, harithmetic.eq_ok hlag, (hharmonic (by decide)).eq_ok hlag, hequal.mpr (by decide)⟩

end LagOne

/-! ## Pairs over all lags -/

section Pairs
open scoped List
variable {β : Type}

/-- Every element together with each one after it. -/
def laterPairs : List β → List (β × β)
  | [] => []
  | x :: xs => xs.map (Prod.mk x) ++ laterPairs xs

/-- The pairs at the lags from one to `n`. -/
def laggedPairs (xs : List β) (n : ℕ) : List (β × β) :=
  (List.range n).flatMap fun k => pairsApart xs (k + 1)

/-- An element that is put in front meets the one that is as far behind as the lag. -/
theorem pairsApart_cons (x : β) (xs : List β) (k : ℕ) :
    pairsApart (x :: xs) (k + 1) = xs[k]?.toList.map (Prod.mk x) ++ pairsApart xs (k + 1) := by
  rw [pairsApart, List.drop_succ_cons]
  by_cases hk : k < xs.length
  · rw [List.drop_eq_getElem_cons hk, List.zip_cons_cons, List.getElem?_eq_getElem hk]
    rfl
  · rw [List.drop_eq_nil_of_le (by omega), List.getElem?_eq_none (by omega), pairsApart,
      List.drop_eq_nil_of_le (by omega), List.zip_nil_right, List.zip_nil_right]
    rfl

theorem flatMap_getElem? (xs : List β) {n : ℕ} (hn : xs.length ≤ n) :
    ((List.range n).flatMap fun k => xs[k]?.toList) = xs := by
  induction xs generalizing n with
  | nil => simp
  | cons x xs ih =>
    obtain ⟨m, rfl⟩ : ∃ m, n = m + 1 := Nat.exists_eq_add_one_of_ne_zero (by rintro rfl; simp at hn)
    have hrest := ih (Nat.le_of_succ_le_succ hn)
    rw [List.range_succ_eq_map, List.flatMap_cons, List.flatMap_map]
    simp only [List.getElem?_cons_zero, List.getElem?_cons_succ, Nat.succ_eq_add_one, hrest]
    rfl

/-- Over all lags every element meets each one after it exactly once. -/
theorem laggedPairs_perm (xs : List β) {n : ℕ} (hn : xs.length ≤ n + 1) :
    (laggedPairs xs n).Perm (laterPairs xs) := by
  induction xs with
  | nil => simp [laggedPairs, laterPairs, pairsApart]
  | cons x xs ih =>
    have hlen : xs.length ≤ n := Nat.le_of_succ_le_succ hn
    have hfront : ((List.range n).flatMap fun k => xs[k]?.toList.map (Prod.mk x)) = xs.map (Prod.mk x) := by
      rw [← List.map_flatMap, flatMap_getElem? xs hlen]
    calc laggedPairs (x :: xs) n
        = (List.range n).flatMap fun k => xs[k]?.toList.map (Prod.mk x) ++ pairsApart xs (k + 1) := by
          simp only [laggedPairs, pairsApart_cons]
      _ ~ xs.map (Prod.mk x) ++ laggedPairs xs n := by
          rw [← hfront]
          exact (List.flatMap_append_perm _ _ _).symm
      _ ~ laterPairs (x :: xs) := (ih (Nat.le_succ_of_le hlen)).append_left _

end Pairs

/-! ## The sum of all coefficients -/

section Correlogram
variable {K : Type} [Field K] [LinearOrder K] [IsStrictOrderedRing K] {xs : List K} {c : K}

omit [LinearOrder K] [IsStrictOrderedRing K] in
/-- The square of a sum has each square once and each product of two terms twice. -/
theorem sum_map_sq {β : Type} (d : β → K) (ys : List β) : (ys.map d).sum ^ 2 =
    (ys.map fun y => d y ^ 2).sum + 2 * ((laterPairs ys).map fun p => d p.1 * d p.2).sum := by
  induction ys with
  | nil => simp [laterPairs]
  | cons y ys ih =>
    have hfront : ((ys.map (Prod.mk y)).map fun p => d p.1 * d p.2).sum = d y * (ys.map d).sum := by
      rw [List.map_map, ← List.sum_map_mul_left]
      rfl
    rw [laterPairs, List.map_append, List.sum_append, hfront, List.map_cons, List.sum_cons, List.map_cons,
      List.sum_cons]
    linear_combination ih

theorem sum_crossSum (xs : List K) (c : K) (n : ℕ) :
    ((List.range n).map fun k => crossSum (pairsApart xs (k + 1)) c).sum =
      ((laggedPairs xs n).map fun p => (p.1 - c) * (p.2 - c)).sum := by
  rw [laggedPairs, List.map_flatMap, List.flatMap_def, List.sum_flatten, List.map_map]
  exact congrArg List.sum (List.map_congr_left fun k _ => crossSum_eq _ c)

/-- The coefficients at the lags from one to the longest within the series. -/
def correlogram (xs : List K) (c : K) : Checked K (List K) :=
  (List.range (xs.length - 1)).mapM fun k => lagAutocorrelation xs (k + 1) c

theorem correlogram_eq_ok (hvary : squareSum xs c ≠ 0) : correlogram xs c =
    .ok ((List.range (xs.length - 1)).map fun k =>
      crossSum (pairsApart xs (k + 1)) c / squareSum xs c) := by
  apply mapM_eq_ok
  intro k hk
  have hlag : k + 1 < xs.length := by
    have := List.mem_range.mp hk
    omega
  have hne : xs ≠ [] := List.ne_nil_of_length_pos (by omega)
  rw [lagAutocorrelation_eq hne (fun _ _ => rfl) hlag rfl, if_neg (mt (Exact.isZero_iff _).mp hvary)]
  rfl

/-- Twice the products over all lags, together with the squares, are the square of the sum. -/
theorem squareSum_add_two_mul_sum_crossSum (xs : List K) (c : K) :
    squareSum xs c + 2 * ((List.range (xs.length - 1)).map fun k => crossSum (pairsApart xs (k + 1)) c).sum =
      (xs.map fun x => x - c).sum ^ 2 := by
  have hpairs : (laggedPairs xs (xs.length - 1)).Perm (laterPairs xs) := laggedPairs_perm xs (by omega)
  rw [sum_crossSum, (hpairs.map _).sum_eq, sum_map_sq (fun x => x - c) xs, squareSum_eq]

/-- The sum of all coefficients around a centre that some reading is away from. -/
theorem exists_correlogram (hvary : squareSum xs c ≠ 0) : ∃ rs, correlogram xs c = .ok rs ∧
    1 + 2 * rs.sum = (xs.map fun x => x - c).sum ^ 2 / (xs.map fun x => (x - c) ^ 2).sum := by
  have hsum : ((List.range (xs.length - 1)).map fun k =>
      crossSum (pairsApart xs (k + 1)) c / squareSum xs c).sum =
      ((List.range (xs.length - 1)).map fun k => crossSum (pairsApart xs (k + 1)) c).sum / squareSum xs c := by
    simp only [div_eq_mul_inv, List.sum_map_mul_right]
  refine ⟨_, correlogram_eq_ok hvary, ?_⟩
  rw [hsum, ← squareSum_eq, ← squareSum_add_two_mul_sum_crossSum, add_div, div_self hvary, mul_div_assoc]

/-- Around the mean the distances cancel. -/
theorem exists_correlogram_reduce (hdiffer : ¬ Coincide xs) :
    ∃ rs, correlogram xs (MeanMethod.arithmetic.reduce xs) = .ok rs ∧ rs.sum = -1 / 2 := by
  have hvary : squareSum xs (MeanMethod.arithmetic.reduce xs) ≠ 0 := by
    rw [ne_eq, squareSum_eq_zero_iff, forall_eq_reduce_iff]
    exact hdiffer
  obtain ⟨rs, hrs, hsum⟩ := exists_correlogram hvary
  rw [sum_sub_reduce] at hsum
  refine ⟨rs, hrs, ?_⟩
  linear_combination hsum / 2

/-- **Over all lags every two readings are counted once.** Around every centre at which a coefficient is
    given, one and twice the sum of the coefficients at the lags within the series is the square of the sum
    of the distances over the sum of their squares. Around the mean of readings that are not all equal the
    coefficients hence add up to minus one half. -/
theorem correlogram_sum (xs : List K) :
    (∀ c, (∃ lag r, lagAutocorrelation xs lag c = .ok r) → ∃ rs, correlogram xs c = .ok rs ∧
      0 < (xs.map fun x => (x - c) ^ 2).sum ∧
      1 + 2 * rs.sum = (xs.map fun x => x - c).sum ^ 2 / (xs.map fun x => (x - c) ^ 2).sum) ∧
    (¬ Coincide xs → ∃ m rs, mean xs .arithmetic = .ok m ∧ correlogram xs m = .ok rs ∧
      rs.sum = -1 / 2) := by
  constructor
  · rintro c ⟨lag, r, hr⟩
    obtain ⟨_, _, _, _, hvary, _⟩ := lagAutocorrelation_eq_ok_iff.mp hr
    rw [Exact.isZero_iff] at hvary
    obtain ⟨rs, hrs, hsum⟩ := exists_correlogram hvary
    have hpos : 0 < squareSum xs c := (squareSum_nonneg xs c).lt_of_ne' hvary
    rw [squareSum_eq] at hpos
    exact ⟨rs, hrs, hpos, hsum⟩
  · intro hdiffer
    have hne : xs ≠ [] := by
      rintro rfl
      exact hdiffer fun v hv => nomatch hv
    obtain ⟨rs, hrs, hsum⟩ := exists_correlogram_reduce hdiffer
    exact ⟨_, rs, mean_arithmetic_eq_ok hne, hrs, hsum⟩

/-- Three readings around three, and around their mean. -/
theorem correlogram_sum_three :
    (∃ rs, correlogram [1, 2, (4 : ℚ)] 3 = .ok rs ∧ 1 + 2 * rs.sum = 4 / 6) ∧
    ∃ m rs, mean [1, 2, (4 : ℚ)] .arithmetic = .ok m ∧ correlogram [1, 2, (4 : ℚ)] m = .ok rs ∧
      rs.sum = -1 / 2 := by
  have hself : lagAutocorrelation [1, 2, (4 : ℚ)] 0 3 = .ok 1 := by
    rw [lagAutocorrelation_eq_ok_iff]
    exact ⟨by simp, fun _ _ => rfl, by decide, rfl, by decide +kernel, by decide +kernel⟩
  obtain ⟨haround, hmean⟩ := correlogram_sum [1, 2, (4 : ℚ)]
  obtain ⟨rs, hrs, _, hsum⟩ := haround 3 ⟨0, 1, hself⟩
  refine ⟨⟨rs, hrs, ?_⟩, hmean (by decide)⟩
  rw [hsum]
  norm_num

end Correlogram

end BatchMeans.Series
