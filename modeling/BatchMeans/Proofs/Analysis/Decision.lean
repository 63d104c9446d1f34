import Mathlib.Analysis.SpecialFunctions.Trigonometric.Arctan
import BatchMeans.Proofs.Analysis.Coherence
import BatchMeans.Proofs.Series.CorrelationBound

/- The required sample size and the width of the interval agree.

   Enough readings are at hand when the required number is at most the number
   of readings; the interval is narrow enough when its width is at most the
   width that is aimed at. The first takes the variance of the block means
   around the mean of the series, rounds up to whole blocks and counts their
   readings; the second takes the variance around the mean of the block means
   and a root. In exact numbers rounding up does not matter, because the number
   of blocks at hand is whole (`readingCount_le_iff`), and taking the root does
   not either (`halfWidth_le_iff`), so the two differ by the centre alone. The
   variance is least around the block means' own mean, hence enough readings
   make the interval narrow enough; where the two centres are one number, so
   are the two answers. -/
namespace BatchMeans.Series

/-- A half width is within bounds exactly when the number of blocks is at least what the bound
    asks for. -/
theorem halfWidth_le_iff {t v e : ℝ} {h : ℕ} (ht : 0 ≤ t) (hv : 0 ≤ v) (he : 0 < e) (hh : 0 < h) :
    halfWidth t v h ≤ e ↔ blockBound t v e ≤ h := by
  have hh' : (0 : ℝ) < h := Nat.cast_pos.mpr hh
  have hsq : halfWidth t v h ^ 2 = t ^ 2 * (v / h) := by
    show (t * Real.sqrt (v / h)) ^ 2 = _
    rw [mul_pow, Real.sq_sqrt (by positivity)]
  have hnonneg : 0 ≤ halfWidth t v h := mul_nonneg ht (Real.sqrt_nonneg _)
  have hbound : blockBound t v e = v * (t / e) ^ 2 := by
    rw [blockBound, Exact.square_eq]
  -- Both sides are squares, and each then asks for `t ^ 2 * v ≤ e ^ 2 * h`.
  calc halfWidth t v h ≤ e
      ↔ t ^ 2 * (v / h) ≤ e ^ 2 := by rw [← sq_le_sq₀ hnonneg he.le, hsq]
    _ ↔ t ^ 2 * v ≤ e ^ 2 * h := by rw [← mul_div_assoc, div_le_iff₀ hh']
    _ ↔ v * (t / e) ^ 2 ≤ h := by
      rw [div_pow, ← mul_div_assoc, div_le_iff₀ (by positivity), mul_comm v, mul_comm (h : ℝ)]
    _ ↔ blockBound t v e ≤ h := by rw [hbound]

/-- Whole blocks are at most all readings exactly when their number is at most that of the blocks
    that fit. -/
theorem readingCount_le_iff {q n count : ℕ} {bound : ℝ} (hq : 1 ≤ q)
    (hcount : Countable q bound count) : count * q ≤ n ↔ bound ≤ (n / q : ℕ) := by
  have hceil : ⌈bound⌉₊ = count := Option.some.inj hcount.1
  rw [← Nat.le_div_iff_mul_le hq, ← hceil, Nat.ceil_le]

theorem blockBound_mono {t v v' e : ℝ} (h : v ≤ v') : blockBound t v e ≤ blockBound t v' e := by
  rw [blockBound, blockBound, Exact.square_eq]
  exact mul_le_mul_of_nonneg_right h (sq_nonneg _)

section Analysis
variable {law : TailLaw ℝ} {xs : List ℝ} {s : Settings ℝ} {a : Analysis ℝ} {r : SampleSize}
  {q : ℕ} {t width : ℝ}

/-- The interval is narrow enough exactly when there are as many blocks as the variance around
    the mean of the block means asks for. -/
theorem meetsWidth_iff (required : Option SampleSize) (hv : s.Valid) (hw : s.width = some width)
    (hq : 2 ≤ xs.length / q) (ht : 0 ≤ t) :
    (Analysis.mk xs.length (s.method.reduce xs) (some (blockPart xs s q t required))).meetsWidth
        width = true ↔
      blockBound t (spread (reduceBlocks xs q s.method)
        (MeanMethod.arithmetic.reduce (reduceBlocks xs q s.method))) (width / 2) ≤
        (xs.length / q : ℕ) := by
  have hpos : 0 < width := (Exact.isPositive_iff width).mp (hv.width width hw)
  rw [← halfWidth_le_iff ht (spread_nonneg _ _) (half_pos hpos) (by omega), le_div_iff₀ two_pos]
  exact decide_eq_true_iff

/-- **Enough readings make the interval narrow enough**, whatever the mean and the critical
    value; and where the mean is the arithmetic one and no reading is left over, an interval
    that is narrow enough has enough readings. -/
theorem meetsWidth_of_readingCount_le (hw : s.width = some width)
    (ha : analyze law xs s = .ok a) (hr : a.required = some r) (hq : a.blockSize = some q)
    (ht : StudentT.criticalValue law (xs.length / q - 1) s.level = .ok t) (ht0 : 0 ≤ t) :
    (r.readingCount ≤ a.sampleSize → a.meetsWidth width = true) ∧
    (s.method = .arithmetic → q ∣ xs.length →
      (r.readingCount ≤ a.sampleSize ↔ a.meetsWidth width = true)) := by
  obtain ⟨hv, _, ha⟩ := analyze_eq_ok_iff.mp ha
  cases ha with
  | single _ => cases hq
  | unsized _ _ _ => cases hq
  | @sized q' t' required _ _ hleast ht' hreq =>
    obtain rfl : q' = q := Option.some.inj hq
    obtain rfl := Except.ok.inj (ht'.symm.trans ht)
    cases hreq with
    | nothing hw' => simp [hw] at hw'
    | @blocks width' count hw' hcount =>
      obtain rfl := Option.some.inj (hw.symm.trans hw')
      obtain rfl := Option.some.inj hr
      have hdiv := hleast.1.two_le_div
      have hreadings := readingCount_le_iff (n := xs.length) hleast.1.1 hcount
      have hmeets := meetsWidth_iff (some ⟨q', count, count * q'⟩) hv hw hdiv ht0
      refine ⟨?_, ?_⟩
      · intro hle
        exact hmeets.mpr ((blockBound_mono (spread_reduce_le _ _)).trans (hreadings.mp hle))
      · intro hmethod hdvd
        -- No reading is left over, so both variances are around one centre.
        have hcentre : MeanMethod.arithmetic.reduce (reduceBlocks xs q' s.method) =
            s.method.reduce xs := by
          rw [hmethod]
          exact reduce_reduceBlocks hleast.1.1 hdvd
        rw [hcentre] at hmeets
        exact hreadings.trans hmeets.symm

end Analysis

/-! ## Two readings -/

section Two
open Real

/-- Student's t with one degree of freedom, whose quantiles are tangents. -/
noncomputable def cauchyLaw : TailLaw ℝ where
  upperTail := fun _ t => 1 / 2 - arctan t / π
  density := fun _ t => 1 / (π * (1 + t ^ 2))
  quantile := fun _ p => tan (π * (p - 1 / 2))

theorem density_cauchyLaw_pos (df : ℕ) (t : ℝ) : 0 < cauchyLaw.density df t := by
  show 0 < 1 / (π * (1 + t ^ 2))
  positivity

/-- A root is not polished: the first step from it is zero. -/
theorem polish_of_root {law : TailLaw ℝ} {df : ℕ} {alpha t : ℝ} (hdensity : 0 < law.density df t) (ht : 0 < t)
    (htail : law.upperTail df t = alpha) (steps : ℕ) :
    StudentT.polish law df alpha (steps + 1) t = t := by
  rw [StudentT.polish, if_pos ⟨hdensity, (Exact.isPositive_iff t).mpr ht⟩]
  simp [htail, StudentT.isNegligible, Arith.ratio]

theorem criticalValue_cauchyLaw : StudentT.criticalValue cauchyLaw 1 (1 / 2) = .ok 1 := by
  have htail : (StudentT.tailOfLevel (1 / 2 : ℝ)) = 1 / 4 := by
    norm_num [StudentT.tailOfLevel]
  have hquantile : cauchyLaw.quantile 1 (1 - 1 / 4) = 1 := by
    have : π * ((1 - 1 / 4) - 1 / 2) = π / 4 := by ring
    simp only [cauchyLaw, this, tan_pi_div_four]
  have hupper : cauchyLaw.upperTail 1 1 = 1 / 4 := by
    simp only [cauchyLaw, arctan_one]
    field_simp
    norm_num
  have hpolish : StudentT.polish cauchyLaw 1 (1 / 4) 4 1 = 1 :=
    polish_of_root (density_cauchyLaw_pos 1 1) one_pos hupper 3
  simp only [StudentT.criticalValue, StudentT.checkLevel, htail, hquantile, hpolish]
  norm_num [require_of]

theorem spread_two : spread [0, (1 : ℝ)] (1 / 2) = 1 / 2 := by
  norm_num [spread_eq, squareSum_eq]

/-- An interval one wide, at a level of one half. -/
noncomputable def evenSettings : Settings ℝ := ⟨1 / 2, 4 / 5, .arithmetic, some 1⟩

theorem evenSettings_valid : evenSettings.Valid where
  level := by norm_num [evenSettings]
  limit := by norm_num [evenSettings]
  width := by
    rintro _ ⟨⟩
    exact (Exact.isPositive_iff 1).mpr one_pos

theorem analyze_two : ∃ a, analyze cauchyLaw [0, 1] evenSettings = .ok a ∧
    a.sampleSize = 2 ∧ a.blockSize = some 1 ∧ a.required = some ⟨1, 2, 2⟩ := by
  have hmean : MeanMethod.arithmetic.reduce [0, (1 : ℝ)] = 1 / 2 := by
    norm_num [reduce_arithmetic]
  have haccepts : Accepts [0, (1 : ℝ)] .arithmetic := accepts_arithmetic (by simp)
  have hspread : spread [0, (1 : ℝ)] (1 / 2) ≠ 0 := by
    rw [spread_two]
    norm_num
  have hcoefficient : |coefficientOf [0, (1 : ℝ)] (1 / 2)| ≤ 4 / 5 := by
    norm_num [coefficientOf, crossSum, Arith.sumBy, spread_two, abs_of_neg]
  have hbound : requiredBound [0, 1] evenSettings 1 1 1 = 2 := by
    rw [requiredBound, evenSettings, reduceBlocks_one, hmean, spread_two, blockBound,
      Exact.square_eq]
    norm_num
  have hcount : Countable 1 (requiredBound [0, 1] evenSettings 1 1 1) 2 := by
    rw [hbound]
    exact ⟨by norm_num, by decide, by decide⟩
  have hleast : IsLeast {q | Qualifies [0, (1 : ℝ)] (MeanMethod.arithmetic.reduce [0, 1])
      .arithmetic (4 / 5) q} 1 := by
    rw [hmean]
    exact isLeast_one haccepts (by simp) hspread hcoefficient
  exact ⟨_, analyze_eq_ok_iff.mpr ⟨evenSettings_valid, haccepts, .sized le_rfl rfl hleast
    criticalValue_cauchyLaw (.blocks rfl hcount)⟩, rfl, rfl, rfl⟩

/-- Two readings at a level of one half: the two that are required are there, and the interval
    is exactly as wide as wanted. -/
theorem meetsWidth_of_readingCount_le_two :
    ∃ a r, analyze cauchyLaw [0, 1] evenSettings = .ok a ∧ a.required = some r ∧
      r.readingCount ≤ a.sampleSize ∧ a.meetsWidth 1 = true := by
  obtain ⟨a, ha, hn, hq, hr⟩ := analyze_two
  have hle : 2 ≤ a.sampleSize := hn.ge
  have hw : evenSettings.width = some 1 := rfl
  have h := meetsWidth_of_readingCount_le hw ha hr hq criticalValue_cauchyLaw zero_le_one
  exact ⟨a, _, ha, hr, hle, h.1 hle⟩

end Two

end BatchMeans.Series
