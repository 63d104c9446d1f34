import BatchMeans.Proofs.Arith.DoubleSigns
import BatchMeans.Proofs.Series.Cutting
import BatchMeans.Proofs.Series.LeastBlockSize

/- The block size of a series whose readings are all alike, in double precision.

   The block means of such a series are alike too, so their variance is zero
   around the mean of the series, and every size counts as fully correlated,
   as long as the mean of a block and the mean of the series are rounded alike
   (`blockSize?_replicate_of_isZero`). They are when every sum is exact, and every sum
   is exact when the significand of the reading leaves room for the length
   (`blockSize?_replicate`); a sum that is exact only because it happens to end in
   zeros is not looked at. Three readings of a tenth have no exact sum: their mean
   is not a tenth, and the deviations from it are taken for a correlation of two
   thirds. -/
namespace BatchMeans.Series
open Double

variable {c limit : Float} {n m q : ℕ} {e : ℤ}

/-! ## Deviations of zero -/

theorem isZero_spread_replicate {v centre : Float} (hk : 2 ≤ q) (h : Arith.IsZero (v - centre)) :
    Arith.IsZero (spread (List.replicate q v) centre) := by
  apply isZero_div
  · apply isZero_sumBy
    intro x hx
    rw [List.eq_of_mem_replicate hx]
    exact isZero_mul h h
  · rw [List.length_replicate]
    exact count_pos (by omega)

theorem reduceBlocks_replicate (n : ℕ) (c : Float) (q : ℕ) (method : MeanMethod) :
    reduceBlocks (List.replicate n c) q method =
      List.replicate (n / q) (method.reduce (List.replicate q c)) := by
  rw [reduceBlocks, blocks_replicate, List.map_replicate]

theorem accepts_replicate (hn : 2 ≤ n) (hc : c.isFinite = true) :
    Accepts (List.replicate n c) .arithmetic where
  nonempty := by
    intro h
    have := congrArg List.length h
    simp at this
    omega
  finite := by
    intro x hx
    rw [List.eq_of_mem_replicate hx]
    exact hc
  nonzero := fun h => nomatch h

/-- When no block mean differs from the mean of the series, no limit below one is met. -/
theorem blockSize?_replicate_of_isZero (hn : 2 ≤ n) (hc : c.isFinite = true)
    (hmean : (MeanMethod.arithmetic.reduce (List.replicate n c)).isFinite = true)
    (hsame : ∀ q, 1 ≤ q → q ≤ n / 2 → Arith.IsZero (MeanMethod.arithmetic.reduce (List.replicate q c) -
      MeanMethod.arithmetic.reduce (List.replicate n c)))
    (hl : 0 ≤ limit) (hl1 : limit < 1) :
    blockSize? (List.replicate n c) .arithmetic limit = .ok none := by
  have haccepts := accepts_replicate hn hc
  rw [blockSize?_eq_none_iff haccepts (by rwa [List.length_replicate]) hmean hl]
  rintro q ⟨hq, hdiv, coefficient, hcoefficient, hle⟩
  have hdiv' : 2 ≤ n / q := by rwa [List.length_replicate] at hdiv
  have hzero : Arith.IsZero (spread (reduceBlocks (List.replicate n c) q .arithmetic)
      (MeanMethod.arithmetic.reduce (List.replicate n c))) := by
    rw [reduceBlocks_replicate]
    exact isZero_spread_replicate hdiv' (hsame q hq (two_le_div_iff.mp hdiv').2)
  -- A size without variance is judged by a coefficient of one.
  rw [effectiveCoefficient?, blockAutocorrelation_eq haccepts hdiv hmean, if_pos hzero] at hcoefficient
  obtain rfl := Option.some.inj hcoefficient
  exact (lt_iff.mp hl1).2 hle

/-! ## Exact sums -/

/-- The sum of copies of a reading is exact while it has at most fifty-three digits. -/
theorem value_sum_replicate (hc : c.isFinite = true) (hv : value c = magnitude m e) (he : -1074 ≤ e)
    (he' : e ≤ 971) : ∀ k : ℕ, k * m < 2 ^ 53 →
    (Arith.sumBy MeanMethod.arithmetic.term (List.replicate k c)).isFinite = true ∧
      value (Arith.sumBy MeanMethod.arithmetic.term (List.replicate k c)) = k * value c
  | 0, _ => by
    refine ⟨isFinite_zero, ?_⟩
    rw [Nat.cast_zero, zero_mul]
    exact value_zero
  | k + 1, hk => by
    obtain ⟨hfinite, hvalue⟩ := value_sum_replicate hc hv he he' k (by rw [Nat.succ_mul] at hk; omega)
    rw [List.replicate_succ', Arith.sumBy_concat]
    have hround := rounds_add hfinite hc
    have hsum : value (Arith.sumBy MeanMethod.arithmetic.term (List.replicate k c)) + value c =
        ((k + 1 : ℕ) : ℚ) * value c := by
      rw [hvalue]
      push_cast
      ring
    rw [hsum] at hround
    -- The exact sum is the value of a double.
    obtain ⟨y, hy, fy, hexact⟩ := exists_isDouble hk he he'
    refine hround.exact_eq (isDouble_parts _) hy fy ?_
    rw [hexact, hv, magnitude, magnitude]
    push_cast
    ring

/-- The mean of copies of a reading is that reading. -/
theorem value_mean_replicate (hc : c.isFinite = true) (hm : 0 < m) (hv : value c = magnitude m e)
    (he : -1074 ≤ e) (he' : e ≤ 971) {k : ℕ} (hk : 1 ≤ k) (hkm : k * m < 2 ^ 53) :
    (MeanMethod.arithmetic.reduce (List.replicate k c)).isFinite = true ∧
      value (MeanMethod.arithmetic.reduce (List.replicate k c)) = value c := by
  obtain ⟨hfinite, hvalue⟩ := value_sum_replicate hc hv he he' k hkm
  obtain ⟨hcount, hcountValue⟩ := value_ofNat ((Nat.le_mul_of_pos_right k hm).trans_lt hkm)
  have hpos : (k : ℚ) ≠ 0 := by exact_mod_cast (by omega : k ≠ 0)
  have hround := rounds_div hfinite hcount (by rwa [hcountValue])
  rw [hvalue, hcountValue, mul_div_cancel_left₀ _ hpos] at hround
  have hmean := value_of_rounds hround hc rfl
  rw [MeanMethod.reduce, List.length_replicate]
  exact hmean

/-- **Copies of one reading are fully correlated at every size when its significand leaves room for
    their number.** No limit below one is met by a series of `n` copies of `m * 2 ^ e`, if `n * m` has at
    most fifty-three binary digits: all block means are the reading itself. This is less than an exact sum asks
    for: two copies of an odd significand of fifty-three digits have one too. -/
theorem blockSize?_replicate (hn : 2 ≤ n) (hc : c.isFinite = true) (hm : 0 < m) (hv : value c = magnitude m e)
    (he : -1074 ≤ e) (he' : e ≤ 971) (hnm : n * m < 2 ^ 53) (hl : 0 ≤ limit) (hl1 : limit < 1) :
    blockSize? (List.replicate n c) .arithmetic limit = .ok none := by
  obtain ⟨hmean, hvalue⟩ := value_mean_replicate hc hm hv he he' (by omega : 1 ≤ n) hnm
  refine blockSize?_replicate_of_isZero hn hc hmean (fun q hq hqn => ?_) hl hl1
  have hqm : q * m < 2 ^ 53 := (Nat.mul_le_mul_right m (by omega : q ≤ n)).trans_lt hnm
  obtain ⟨hblock, hblockValue⟩ := value_mean_replicate hc hm hv he he' hq hqm
  have hround := rounds_sub hblock hmean
  rw [hblockValue, hvalue, sub_self] at hround
  exact isZero_of_rounds hround

/-- Five readings of three. -/
theorem blockSize?_replicate_five : blockSize? (List.replicate 5 (3.0 : Float)) .arithmetic 0.8 = .ok none :=
  blockSize?_replicate (m := 3) (e := 0) (by decide) (by decide +kernel) (by decide) (by decide +kernel)
    (by decide) (by decide) (by decide) (by decide +kernel) (by decide +kernel)

/-- Three readings of a tenth pass for nearly uncorrelated under a limit of four fifths. -/
theorem blockSize?_tenths :
    (blockSize? [0.1, 0.1, (0.1 : Float)] .arithmetic 0.8).toOption = some (some 1) := by
  decide +kernel

end BatchMeans.Series
