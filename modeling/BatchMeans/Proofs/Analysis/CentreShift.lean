import BatchMeans.Proofs.Analysis.Decision

/- The variance that is reported and the variance behind the interval.

   Both are taken of the same block means, with the same divisor. The interval
   measures them from their own mean, the reported variance from a centre that is
   given: in an analysis, the mean of the whole series. The two differ by the square
   of the distance between the centres, weighted by `m / (m - 1)` for `m` blocks
   (`spread_shift`). The weight does not vanish, so the reported variance is the larger one
   unless the two means are equal, as arithmetic means are when no reading is left
   over (`reduce_reduceBlocks`). The numbers are those of any ordered field, with whatever roots. -/
namespace BatchMeans.Series
variable {K : Type} [Field K] [LinearOrder K] [IsStrictOrderedRing K] {xs means : List K}
  {method : MeanMethod} {q : ℕ}

/-- The mean of block means, from which an interval measures them. -/
abbrev ownMean (means : List K) : K := MeanMethod.arithmetic.reduce means

/-- The variance of block means around their own mean. -/
abbrev ownVariance (means : List K) : K := spread means (ownMean means)

section Analysis
variable [Exact.Roots K] {law : TailLaw K} {s : Settings K} {a : Analysis K} {level t : K}

/-- What the analysis reports of the blocks, by the block means alone. -/
theorem exists_variance_of_analyze (ha : analyze law xs s = .ok a) (hq : a.blockSize = some q) :
    ∃ t, StudentT.criticalValue law (xs.length / q - 1) s.level = .ok t ∧
      a.mean = s.method.reduce xs ∧
      a.variance = some (spread (reduceBlocks xs q s.method) a.mean) ∧
      ∃ i, a.interval = some i ∧
        i.halfWidth = halfWidth t (ownVariance (reduceBlocks xs q s.method)) (xs.length / q) := by
  obtain ⟨_, _, ha⟩ := analyze_eq_ok_iff.mp ha
  cases ha with
  | single _ => cases hq
  | unsized _ _ _ => cases hq
  | sized _ _ _ ht _ =>
    obtain rfl := Option.some.inj hq
    exact ⟨_, ht, rfl, rfl, _, rfl, rfl⟩

/-- **The variance around a centre is that of the interval and the weighted square of the distance between
    the centres.** An analysis reports the one around the mean of the series; so it never reports less
    than its interval uses, and the same only when that mean is the mean of the block means. -/
theorem blockVariance_eq_shift (hmeans : blockMeans xs q method = .ok means) (hm : 2 ≤ means.length) :
    (∀ c, blockVariance xs q c method = .ok (ownVariance means +
      (means.length : K) / ((means.length : K) - 1) * (c - ownMean means) ^ 2)) ∧
    (∀ (law : TailLaw K) level, 0 < level ∧ level < 1 →
      ∃ t, StudentT.criticalValue law (means.length - 1) level = .ok t ∧
        ∀ anchor, ∃ i, confidenceInterval law xs q level method anchor = .ok i ∧
          i.halfWidth = halfWidth t (ownVariance means) means.length ∧
          (anchor = .blockMeans → i.point = ownMean means)) ∧
    ∀ (law : TailLaw K) s a, s.method = method → analyze law xs s = .ok a → a.blockSize = some q →
      ∃ v t i, a.variance = some v ∧ blockVariance xs q a.mean method = .ok v ∧ a.interval = some i ∧
        StudentT.criticalValue law (means.length - 1) s.level = .ok t ∧
        i.halfWidth = halfWidth t (ownVariance means) means.length ∧
        ownVariance means ≤ v ∧ (v = ownVariance means ↔ a.mean = ownMean means) ∧
        (method = .arithmetic → q ∣ xs.length → a.mean = ownMean means) := by
  obtain ⟨h, hq, _, rfl⟩ := blockMeans_eq_ok_iff.mp hmeans
  have hlen : (reduceBlocks xs q method).length = xs.length / q := length_reduceBlocks xs q method
  have hdiv : 2 ≤ xs.length / q := by rwa [← hlen]
  refine ⟨?_, ?_, ?_⟩
  · intro c
    rw [blockVariance_eq_ok h hdiv rfl, spread_shift (by omega) c]
  · intro law level hlevel
    rw [hlen]
    obtain ⟨t, ht⟩ := exists_criticalValue_of_two_le_div law hlevel hdiv
    refine ⟨t, ht, fun anchor => ⟨_, confidenceInterval_eq_ok h hlevel hdiv ht anchor, rfl, ?_⟩⟩
    rintro rfl
    rfl
  · rintro law s a rfl ha hsize
    obtain ⟨t, ht, hmean, hvariance, i, hi, hwidth⟩ := exists_variance_of_analyze ha hsize
    rw [hlen]
    refine ⟨_, t, i, hvariance, blockVariance_eq_ok h hdiv rfl, hi, ht, hwidth, spread_reduce_le _ _,
      spread_eq_spread_reduce_iff hm _, ?_⟩
    intro hmethod hdvd
    rw [hmean, hmethod]
    exact (reduce_reduceBlocks hq hdvd).symm

end Analysis

/-! ## Two rates -/

/-- Harmonic means at the level of `evenSettings`, and no width to aim at. -/
noncomputable def rateSettings : Settings ℝ := { evenSettings with method := .harmonic, width := none }

theorem rateSettings_valid : rateSettings.Valid where
  level := evenSettings_valid.level
  limit := evenSettings_valid.limit
  width := fun _ hw => (nomatch hw)

theorem harmonicMean_two : MeanMethod.harmonic.reduce [1, (3 : ℝ)] = 3 / 2 := by
  norm_num [reduce_harmonic]

theorem analyze_rates : ∃ a, analyze cauchyLaw [1, 3] rateSettings = .ok a ∧ a.mean = 3 / 2 ∧
    a.blockSize = some 1 := by
  have haccepts : Accepts [1, (3 : ℝ)] .harmonic := accepts_of_pos .harmonic (by simp) (by simp)
  have hspread : spread [1, (3 : ℝ)] (3 / 2) = 5 / 2 := by
    norm_num [spread_eq, squareSum_eq]
  have hcoefficient : |coefficientOf [1, (3 : ℝ)] (3 / 2)| ≤ 4 / 5 := by
    rw [coefficientOf, hspread]
    norm_num [crossSum, Arith.sumBy, abs_of_neg]
  have hleast : IsLeast {q | Qualifies [1, (3 : ℝ)] (MeanMethod.harmonic.reduce [1, 3])
      .harmonic (4 / 5) q} 1 := by
    rw [harmonicMean_two]
    exact isLeast_one haccepts (by simp) (by rw [hspread]; norm_num) hcoefficient
  exact ⟨_, analyze_eq_ok_iff.mpr ⟨rateSettings_valid, haccepts, .sized le_rfl rfl hleast
    criticalValue_cauchyLaw (.nothing rfl)⟩, harmonicMean_two, rfl⟩

/-- Two rates vary by two around their arithmetic mean, which is what the interval uses, and by more
    around their harmonic mean. -/
theorem blockVariance_eq_shift_two :
    blockMeans [1, (3 : ℝ)] 1 .harmonic = .ok [1, 3] ∧
    blockVariance [1, (3 : ℝ)] 1 (3 / 2) .harmonic = .ok (2 + 2 / (2 - 1) * (3 / 2 - 2) ^ 2) ∧
    ∃ a v i, analyze cauchyLaw [1, 3] rateSettings = .ok a ∧ a.variance = some v ∧ a.interval = some i ∧
      i.halfWidth = halfWidth 1 2 2 ∧ 2 < v := by
  have haccepts : Accepts [1, (3 : ℝ)] .harmonic := accepts_of_pos .harmonic (by simp) (by simp)
  have hmeans : blockMeans [1, (3 : ℝ)] 1 .harmonic = .ok [1, 3] :=
    blockMeans_eq_ok_iff.mpr ⟨haccepts, by simp, by simp, reduceBlocks_one _ _⟩
  have hmean : ownMean [1, (3 : ℝ)] = 2 := by
    norm_num [ownMean, reduce_arithmetic]
  have hown : ownVariance [1, (3 : ℝ)] = 2 := by
    rw [ownVariance, hmean]
    norm_num [spread_eq, squareSum_eq]
  obtain ⟨hvariance, _, hanalysis⟩ := @blockVariance_eq_shift ℝ _ _ _ _ _ .harmonic 1
    ⟨Real.sqrt, fun x => some ⌈x⌉₊⟩ hmeans le_rfl
  obtain ⟨a, ha, hcentre, hsize⟩ := analyze_rates
  obtain ⟨v, t, i, hv, _, hi, ht, hwidth, hle, heq, _⟩ := hanalysis cauchyLaw rateSettings a rfl ha hsize
  obtain rfl := Except.ok.inj (ht.symm.trans criticalValue_cauchyLaw)
  have hdiffer : v ≠ ownVariance [1, (3 : ℝ)] := by
    rw [ne_eq, heq, hcentre, hmean]
    norm_num
  rw [hown] at hwidth hle hdiffer
  refine ⟨hmeans, ?_, a, v, i, ha, hv, hi, hwidth, lt_of_le_of_ne hle hdiffer.symm⟩
  have hreported := hvariance (3 / 2)
  rw [hown, hmean] at hreported
  exact hreported

end BatchMeans.Series
