import BatchMeans.Proofs.Analysis.Decision

/- What a higher confidence level does to an analysis.

   The level enters an analysis through the critical value alone. Where critical
   values are exact roots of a tail that falls strictly (`ExactRoots`), a higher level
   has a larger one (`criticalValue_lt`). The half width is proportional to it and the
   bound on the number of blocks to its square, so both can only grow: strictly, unless
   the block means do not vary. What an analysis at the higher level found is found at
   the lower level too, with an interval within the other one and with no more blocks
   required (`analyze_atLevel`). -/
namespace BatchMeans

/-- What a distribution has to be for its critical values to be roots: the tail falls strictly, and a critical
    value is positive and leaves the tail of its level above it. -/
structure ExactRoots (law : TailLaw ℝ) : Prop where
  tail : ∀ df, 1 ≤ df → StrictAntiOn (law.upperTail df) (Set.Ioi 0)
  root : ∀ df level t, StudentT.criticalValue law df level = .ok t →
    0 < t ∧ law.upperTail df t = StudentT.tailOfLevel level

namespace Series
variable {law : TailLaw ℝ} {xs : List ℝ} {s : Settings ℝ} {method : MeanMethod} {q df : ℕ}
  {l₁ l₂ t₁ t₂ v e : ℝ} {a₁ a₂ : Analysis ℝ}

/-! ## Critical values -/

theorem tailOfLevel_lt (h : l₁ < l₂) : StudentT.tailOfLevel l₂ < StudentT.tailOfLevel l₁ := by
  show (1 - l₂) / 2 < (1 - l₁) / 2
  linarith

/-- A higher level has a larger critical value. -/
theorem criticalValue_lt (hroots : ExactRoots law) (hdf : 1 ≤ df) (h : l₁ < l₂)
    (h₁ : StudentT.criticalValue law df l₁ = .ok t₁) (h₂ : StudentT.criticalValue law df l₂ = .ok t₂) :
    0 < t₁ ∧ t₁ < t₂ := by
  obtain ⟨hpos₁, htail₁⟩ := hroots.root df l₁ t₁ h₁
  obtain ⟨hpos₂, htail₂⟩ := hroots.root df l₂ t₂ h₂
  refine ⟨hpos₁, ((hroots.tail df hdf).lt_iff_gt hpos₂ hpos₁).mp ?_⟩
  rw [htail₁, htail₂]
  exact tailOfLevel_lt h

/-! ## Half widths and numbers of blocks -/

section Means
variable {means : List ℝ} {h : ℕ}

/-- The half width is zero for block means that are all equal. -/
theorem halfWidth_of_coincide (hlen : 2 ≤ means.length) (hall : Coincide means) (t : ℝ) (h : ℕ) :
    halfWidth t (spread means (MeanMethod.arithmetic.reduce means)) h = 0 := by
  rw [(spread_reduce_eq_zero_iff hlen).mpr hall]
  show t * Real.sqrt (0 / h) = 0
  rw [zero_div, Real.sqrt_zero, mul_zero]

/-- For others it grows with the critical value. -/
theorem halfWidth_lt_of_not_coincide (hlen : 2 ≤ means.length) (hvary : ¬ Coincide means) (hh : 0 < h)
    (ht : t₁ < t₂) :
    halfWidth t₁ (spread means (MeanMethod.arithmetic.reduce means)) h <
      halfWidth t₂ (spread means (MeanMethod.arithmetic.reduce means)) h := by
  have hne := mt (spread_reduce_eq_zero_iff hlen).mp hvary
  have hpos : 0 < spread means (MeanMethod.arithmetic.reduce means) := (spread_nonneg _ _).lt_of_ne' hne
  exact mul_lt_mul_of_pos_right ht (Real.sqrt_pos.mpr (div_pos hpos (Nat.cast_pos.mpr hh)))

end Means

theorem blockBound_le_blockBound (hv : 0 ≤ v) (ht₁ : 0 ≤ t₁) (ht : t₁ ≤ t₂) :
    blockBound t₁ v e ≤ blockBound t₂ v e := by
  rw [blockBound, blockBound, Exact.square_eq, Exact.square_eq, div_pow, div_pow]
  have hsq : t₁ ^ 2 ≤ t₂ ^ 2 := pow_le_pow_left₀ ht₁ ht 2
  exact mul_le_mul_of_nonneg_left (div_le_div_of_nonneg_right hsq (sq_nonneg e)) hv

/-- What a smaller bound asks for can be counted when that of a larger one can. -/
theorem Countable.mono {bound₁ bound₂ : ℝ} {count₂ : ℕ} (h : Countable q bound₂ count₂)
    (hle : bound₁ ≤ bound₂) : ∃ count₁ ≤ count₂, Countable q bound₁ count₁ := by
  obtain ⟨hceil, hblocks, hreadings⟩ := h
  have hcount : ⌈bound₁⌉₊ ≤ count₂ := by
    rw [← Option.some.inj hceil]
    exact Nat.ceil_mono hle
  exact ⟨_, hcount, rfl, hcount.trans_lt hblocks, (Nat.mul_le_mul_right q hcount).trans_lt hreadings⟩

/-! ## Two levels -/

/-- A sample of blocks of the same size, of no more of them. -/
structure NoLarger (r₁ r₂ : SampleSize) : Prop where
  blockSize : r₁.blockSize = r₂.blockSize
  blockCount : r₁.blockCount ≤ r₂.blockCount
  readingCount : r₁.readingCount ≤ r₂.readingCount

/-- An interval around the same point, within another one. -/
structure Within (i₁ i₂ : Interval ℝ) : Prop where
  point : i₁.point = i₂.point
  lower : i₂.lower ≤ i₁.lower
  upper : i₁.upper ≤ i₂.upper
  contains : ∀ x, i₁.contains x = true → i₂.contains x = true

theorem within_of_halfWidth_le {i₁ i₂ : Interval ℝ} (hpoint : i₁.point = i₂.point)
    (hwidth : i₁.halfWidth ≤ i₂.halfWidth) : Within i₁ i₂ := by
  have hlower : i₂.lower ≤ i₁.lower := by
    show i₂.point - i₂.halfWidth ≤ i₁.point - i₁.halfWidth
    linarith
  have hupper : i₁.upper ≤ i₂.upper := by
    show i₁.point + i₁.halfWidth ≤ i₂.point + i₂.halfWidth
    linarith
  refine ⟨hpoint, hlower, hupper, fun x hx => ?_⟩
  obtain ⟨hbelow, habove⟩ := of_decide_eq_true hx
  exact decide_eq_true ⟨hlower.trans hbelow, habove.trans hupper⟩

/-- What a lower level leaves of the part about blocks: the same block size, variance and coefficient, an interval
    within the other one, narrower unless the block means are all equal, and no more readings required. -/
structure NarrowerBlocks (xs : List ℝ) (method : MeanMethod) (b₁ b₂ : BlockAnalysis ℝ) : Prop where
  blockSize : b₁.blockSize = b₂.blockSize
  variance : b₁.variance = b₂.variance
  coefficient : b₁.coefficient = b₂.coefficient
  interval : Within b₁.interval b₂.interval
  zero : Coincide (reduceBlocks xs b₁.blockSize method) →
    b₁.interval.halfWidth = 0 ∧ b₂.interval.halfWidth = 0
  lt : ¬ Coincide (reduceBlocks xs b₁.blockSize method) → b₁.interval.halfWidth < b₂.interval.halfWidth
  required : Option.Rel NoLarger b₁.required b₂.required

/-- What a lower level leaves of an analysis: it meets every width that is met at the higher level. -/
structure Narrower (xs : List ℝ) (method : MeanMethod) (a₁ a₂ : Analysis ℝ) : Prop where
  sampleSize : a₁.sampleSize = a₂.sampleSize
  mean : a₁.mean = a₂.mean
  blocks : Option.Rel (NarrowerBlocks xs method) a₁.blocks a₂.blocks
  meetsWidth : ∀ width, a₂.meetsWidth width = true → a₁.meetsWidth width = true

/-- A smaller critical value requires no more. -/
theorem Requires.atLevel {required₂ : Option SampleSize} (ht₁ : 0 ≤ t₁) (ht : t₁ ≤ t₂)
    (h : Requires xs { s with level := l₂ } q t₂ required₂) :
    ∃ required₁, Requires xs { s with level := l₁ } q t₁ required₁ ∧
      Option.Rel NoLarger required₁ required₂ := by
  cases h with
  | nothing hw => exact ⟨none, .nothing hw, .none⟩
  | @blocks width count hw hcount =>
    have hbound := blockBound_le_blockBound (e := width / Arith.count 2)
      (spread_nonneg (reduceBlocks xs q s.method) (s.method.reduce xs)) ht₁ ht
    obtain ⟨count₁, hle, hcount₁⟩ := hcount.mono hbound
    exact ⟨_, .blocks hw hcount₁, .some ⟨rfl, hle, Nat.mul_le_mul_right q hle⟩⟩

/-- A smaller critical value leaves the block size, the variance and the coefficient, and an interval within. -/
theorem narrowerBlocks_blockPart {required₁ required₂ : Option SampleSize} (hq : 2 ≤ xs.length / q)
    (ht : t₁ < t₂) (hreq : Option.Rel NoLarger required₁ required₂) :
    NarrowerBlocks xs s.method (blockPart xs { s with level := l₁ } q t₁ required₁)
      (blockPart xs { s with level := l₂ } q t₂ required₂) := by
  have hlen : 2 ≤ (reduceBlocks xs q s.method).length := hq.trans_eq (length_reduceBlocks xs q s.method).symm
  refine ⟨rfl, rfl, rfl, within_of_halfWidth_le rfl ?_, fun hall => ?_, fun hvary => ?_, hreq⟩
  · by_cases hall : Coincide (reduceBlocks xs q s.method)
    · exact ((halfWidth_of_coincide hlen hall t₁ _).trans (halfWidth_of_coincide hlen hall t₂ _).symm).le
    · exact (halfWidth_lt_of_not_coincide hlen hall (by omega) ht).le
  · exact ⟨halfWidth_of_coincide hlen hall t₁ _, halfWidth_of_coincide hlen hall t₂ _⟩
  · exact halfWidth_lt_of_not_coincide hlen hvary (by omega) ht

/-- An interval within another one meets every width that the other one meets. -/
theorem width_le_of_within {i₁ i₂ : Interval ℝ} (h : Within i₁ i₂) : i₁.width ≤ i₂.width := by
  have hupper : i₁.point + i₁.halfWidth ≤ i₂.point + i₂.halfWidth := h.upper
  show i₁.halfWidth * 2 ≤ i₂.halfWidth * 2
  linarith [h.point]

theorem Narrower.of_blocks {n : ℕ} {mean : ℝ} {b₁ b₂ : Option (BlockAnalysis ℝ)}
    (h : Option.Rel (NarrowerBlocks xs method) b₁ b₂) : Narrower xs method ⟨n, mean, b₁⟩ ⟨n, mean, b₂⟩ := by
  refine ⟨rfl, rfl, h, fun width hmeets => ?_⟩
  cases h with
  | none => exact hmeets
  | some hb => exact decide_eq_true ((width_le_of_within hb.interval).trans (of_decide_eq_true hmeets))

/-- **A higher level only widens the answer.** Let critical values be exact roots of a tail that falls strictly. If an
    analysis succeeds at a level, it succeeds at every lower level, with the same mean, block size,
    variance and coefficient, an interval within the one at the higher level, a half width that is
    smaller unless the block means are all equal, and no more blocks and readings required; and it meets every width
    that is met at the higher level. -/
theorem analyze_atLevel (hroots : ExactRoots law) (hlow : 0 < l₁) (hlt : l₁ < l₂)
    (h : analyze law xs { s with level := l₂ } = .ok a₂) :
    ∃ a₁, analyze law xs { s with level := l₁ } = .ok a₁ ∧ Narrower xs s.method a₁ a₂ := by
  obtain ⟨hv, haccepts, ha⟩ := analyze_eq_ok_iff.mp h
  have hlevel : 0 < l₁ ∧ l₁ < 1 := ⟨hlow, hlt.trans hv.level.2⟩
  have hv₁ : Settings.Valid { s with level := l₁ } := ⟨hlevel, hv.limit, hv.width⟩
  cases ha with
  | single hn =>
    exact ⟨_, analyze_eq_ok_iff.mpr ⟨hv₁, haccepts, .single hn⟩, .of_blocks .none⟩
  | unsized hn hfinite hnone =>
    exact ⟨_, analyze_eq_ok_iff.mpr ⟨hv₁, haccepts, .unsized hn hfinite hnone⟩, .of_blocks .none⟩
  | @sized q t₂ required₂ hn hfinite hleast ht₂ hreq₂ =>
    have hq : 2 ≤ xs.length / q := hleast.1.two_le_div
    obtain ⟨t₁, ht₁⟩ := exists_criticalValue_of_two_le_div law hlevel hq
    obtain ⟨hpos, ht⟩ := criticalValue_lt hroots (by omega) hlt ht₁ ht₂
    obtain ⟨required₁, hreq₁, hreq⟩ : ∃ required₁, Requires xs { s with level := l₁ } q t₁ required₁ ∧
        Option.Rel NoLarger required₁ required₂ := hreq₂.atLevel hpos.le ht.le
    exact ⟨_, analyze_eq_ok_iff.mpr ⟨hv₁, haccepts, .sized hn hfinite hleast ht₁ hreq₁⟩,
      .of_blocks (.some (narrowerBlocks_blockPart hq ht hreq))⟩

/-! ## Two readings -/

section Two
open Real

/-- The quantile of a tail of less than one half is a positive root. -/
theorem quantile_cauchyLaw (df : ℕ) {alpha : ℝ} (h0 : 0 < alpha) (h1 : alpha < 1 / 2) :
    0 < cauchyLaw.quantile df (1 - alpha) ∧
      cauchyLaw.upperTail df (cauchyLaw.quantile df (1 - alpha)) = alpha := by
  have hpos : 0 < π * (1 - alpha - 1 / 2) := mul_pos pi_pos (by linarith)
  have hlt : π * (1 - alpha - 1 / 2) < π / 2 := by
    have := mul_pos pi_pos h0
    linarith
  refine ⟨tan_pos_of_pos_of_lt_pi_div_two hpos hlt, ?_⟩
  show 1 / 2 - arctan (tan (π * (1 - alpha - 1 / 2))) / π = alpha
  rw [arctan_tan (by linarith) hlt, mul_div_cancel_left₀ _ pi_ne_zero]
  ring

theorem exactRoots_cauchyLaw : ExactRoots cauchyLaw := by
  refine ⟨fun df _ t _ t' _ hlt => ?_, fun df level t ht => ?_⟩
  · show 1 / 2 - arctan t' / π < 1 / 2 - arctan t / π
    have harctan : arctan t / π < arctan t' / π := div_lt_div_of_pos_right (arctan_strictMono hlt) pi_pos
    linarith
  · obtain ⟨_, hlevel, hrest⟩ := bind_eq_ok_iff.mp ht
    obtain ⟨_, hfreedom, _⟩ := bind_eq_ok_iff.mp hrest
    have hl : 0 < level ∧ level < 1 := require_eq_ok_iff.mp hlevel
    rw [criticalValue_eq_polish cauchyLaw hl (require_eq_ok_iff.mp hfreedom)] at ht
    have htail : StudentT.tailOfLevel level = (1 - level) / 2 := rfl
    have h0 : 0 < StudentT.tailOfLevel level := by
      rw [htail]
      linarith
    have h1 : StudentT.tailOfLevel level < 1 / 2 := by
      rw [htail]
      linarith
    obtain ⟨hpos, hroot⟩ := quantile_cauchyLaw df h0 h1
    rw [← Except.ok.inj ht, polish_of_root (density_cauchyLaw_pos df _) hpos hroot]
    exact ⟨hpos, hroot⟩

/-- Two readings at a level of one quarter, whose interval lies within the one at a level of one half. -/
theorem analyze_atLevel_two : ∃ a₁ a₂, analyze cauchyLaw [0, 1] { evenSettings with level := 1 / 4 } = .ok a₁ ∧
    analyze cauchyLaw [0, 1] evenSettings = .ok a₂ ∧ Narrower [0, 1] .arithmetic a₁ a₂ := by
  obtain ⟨a₂, h₂, _⟩ := analyze_two
  obtain ⟨a₁, h₁, hnarrower⟩ := @analyze_atLevel cauchyLaw [0, 1] evenSettings (1 / 4) (1 / 2) a₂
    exactRoots_cauchyLaw (by norm_num) (by norm_num) h₂
  exact ⟨a₁, a₂, h₁, h₂, hnarrower⟩

end Two
end Series
end BatchMeans
