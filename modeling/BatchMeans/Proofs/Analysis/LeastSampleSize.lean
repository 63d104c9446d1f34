import BatchMeans.Proofs.Analysis.Decision

/- The required sample is the least that is large enough.

   A half width `e` asks for as many blocks as the bound `v * (t / e) ^ 2` says,
   rounded up. In exact numbers rounding up gives the least natural number `k`
   with `v * t ^ 2 ≤ k * e ^ 2` (`isLeast_ceil_blockBound`), and the size is given
   exactly when `k` blocks, and the readings in them, can be counted in 64 bits
   (`requiredSize?_eq_some_iff`). A wider interval asks less of every number of
   blocks, so its least number is at most as large, and can be counted when the
   narrower one's can. -/
namespace BatchMeans.Series
variable {law : TailLaw ℝ} {xs : List ℝ} {method : MeanMethod} {level limit t v e width : ℝ}
  {q k : ℕ} {r : SampleSize}

/-! ## The number of blocks -/

/-- There are as many blocks as a half width of `e` asks for. -/
def Suffices (v t e : ℝ) (k : ℕ) : Prop := v * t ^ 2 ≤ k * e ^ 2

theorem blockBound_le_iff (he : 0 < e) : blockBound t v e ≤ k ↔ Suffices v t e k := by
  rw [blockBound, Exact.square_eq, div_pow, ← mul_div_assoc, div_le_iff₀ (by positivity), Suffices]

theorem isLeast_ceil_blockBound (he : 0 < e) :
    IsLeast {k | Suffices v t e k} ⌈blockBound t v e⌉₊ := by
  constructor
  · exact (blockBound_le_iff he).mp (Nat.le_ceil _)
  · intro k hk
    exact Nat.ceil_le.mpr ((blockBound_le_iff he).mpr hk)

/-- What is enough for a half width is enough for a larger one. -/
theorem Suffices.mono {e' : ℝ} (he : 0 ≤ e) (hle : e ≤ e') (h : Suffices v t e k) :
    Suffices v t e' k := by
  have hsq : e ^ 2 ≤ e' ^ 2 := pow_le_pow_left₀ he hle 2
  exact h.trans (mul_le_mul_of_nonneg_left hsq (Nat.cast_nonneg k))

/-! ## The required size -/

/-- The variance that decides about the size: that of the block means around the mean of the
    series. -/
noncomputable def decidingVariance (xs : List ℝ) (method : MeanMethod) (q : ℕ) : ℝ :=
  spread (reduceBlocks xs q method) (method.reduce xs)

theorem ofBound_blockBound_eq_ok_iff (he : 0 < e) :
    SampleSize.ofBound width q (blockBound t v e) = .ok r ↔
      ∃ k, IsLeast {k | Suffices v t e k} k ∧ (k < 2 ^ 64 ∧ k * q < 2 ^ 64) ∧ r = ⟨q, k, k * q⟩ := by
  have hleast := isLeast_ceil_blockBound (v := v) (t := t) he
  rw [ofBound_eq_ok_iff]
  constructor
  · rintro ⟨k, ⟨hk, hblocks, hreadings⟩, rfl⟩
    obtain rfl := Option.some.inj hk
    exact ⟨_, hleast, ⟨hblocks, hreadings⟩, rfl⟩
  · rintro ⟨k, hk, ⟨hblocks, hreadings⟩, rfl⟩
    obtain rfl := hleast.unique hk
    exact ⟨_, ⟨rfl, hblocks, hreadings⟩, rfl⟩

/-- A size is required when all that the computation begins with succeeds and the least number of
    blocks fits. -/
theorem requiredSize?_eq_some_iff :
    requiredSize? law xs width method level limit = .ok (some r) ↔
      ∃ q t k, (0 < level ∧ level < 1) ∧ 0 < width ∧ blockSize? xs method limit = .ok (some q) ∧
        StudentT.criticalValue law (xs.length / q - 1) level = .ok t ∧
        IsLeast {k | Suffices (decidingVariance xs method q) t (width / 2) k} k ∧
        (k < 2 ^ 64 ∧ k * q < 2 ^ 64) ∧ r = ⟨q, k, k * q⟩ := by
  constructor
  · intro hr
    obtain ⟨_, hlevel, hrest⟩ := bind_eq_ok_iff.mp hr
    obtain ⟨_, hwidth, hrest⟩ := bind_eq_ok_iff.mp hrest
    obtain ⟨found, hsize, hrest⟩ := bind_eq_ok_iff.mp hrest
    have hl := require_eq_ok_iff.mp hlevel
    have hw := require_eq_ok_iff.mp hwidth
    have he : 0 < width / 2 := half_pos ((Exact.isPositive_iff width).mp hw)
    cases found with
    | none => cases hrest
    | some q =>
      obtain ⟨t, ht, _⟩ := bind_eq_ok_iff.mp hrest
      have hq := (two_le_div_of_blockSize? hsize).2
      rw [requiredSize?_eq hl hw (accepts_of_blockSize? hsize).1 hsize hq rfl ht] at hr
      obtain ⟨_, hbound, hsome⟩ := bind_eq_ok_iff.mp hr
      obtain rfl := Option.some.inj (Except.ok.inj hsome)
      obtain ⟨k, hk⟩ := (ofBound_blockBound_eq_ok_iff he).mp hbound
      exact ⟨q, t, k, hl, (Exact.isPositive_iff width).mp hw, hsize, ht, hk⟩
  · rintro ⟨q, t, k, hl, hw, hsize, ht, hk⟩
    have hq := (two_le_div_of_blockSize? hsize).2
    have hbound : SampleSize.ofBound width q
        (blockBound t (decidingVariance xs method q) (width / 2)) = .ok r :=
      (ofBound_blockBound_eq_ok_iff (half_pos hw)).mpr ⟨k, hk⟩
    rw [requiredSize?_eq hl ((Exact.isPositive_iff width).mpr hw) (accepts_of_blockSize? hsize).1 hsize
      hq rfl ht]
    exact bind_eq_ok_iff.mpr ⟨r, hbound, rfl⟩

/-- Once a block size is found, the size is given or the input breaks a rule. -/
theorem requiredSize?_of_not_some (hsize : blockSize? xs method limit = .ok (some q))
    (hno : ¬ ∃ r, requiredSize? law xs width method level limit = .ok (some r)) :
    ∃ cause, requiredSize? law xs width method level limit = .error (.invalid cause) := by
  cases hresult : requiredSize? law xs width method level limit with
  | error e =>
    obtain ⟨cause, rfl⟩ := requiredSize?_onlyInvalid law xs width method level limit e hresult
    exact ⟨cause, rfl⟩
  | ok found =>
    cases found with
    | some r => exact absurd ⟨r, hresult⟩ hno
    | none =>
      -- There is none only where the search found none.
      obtain ⟨_, _, hrest⟩ := bind_eq_ok_iff.mp hresult
      obtain ⟨_, _, hrest⟩ := bind_eq_ok_iff.mp hrest
      rw [hsize, ok_bind] at hrest
      obtain ⟨_, _, hrest⟩ := bind_eq_ok_iff.mp hrest
      obtain ⟨_, _, hrest⟩ := bind_eq_ok_iff.mp hrest
      obtain ⟨_, _, hrest⟩ := bind_eq_ok_iff.mp hrest
      obtain ⟨_, _, hrest⟩ := bind_eq_ok_iff.mp hrest
      cases hrest

/-- A wider interval needs at most as many blocks. -/
theorem requiredSize?_mono {width' : ℝ} (hle : width ≤ width')
    (hr : requiredSize? law xs width method level limit = .ok (some r)) :
    ∃ r', requiredSize? law xs width' method level limit = .ok (some r') ∧
      r'.blockSize = r.blockSize ∧ r'.blockCount ≤ r.blockCount ∧
      r'.readingCount ≤ r.readingCount := by
  obtain ⟨q, t, k, hl, hw, hsize, ht, hk, hfits, rfl⟩ := requiredSize?_eq_some_iff.mp hr
  have hw' : 0 < width' := hw.trans_le hle
  have hk' := isLeast_ceil_blockBound (v := decidingVariance xs method q) (t := t) (half_pos hw')
  set k' := ⌈blockBound t (decidingVariance xs method q) (width' / 2)⌉₊
  have hcount : k' ≤ k := hk'.2 (hk.1.mono (half_pos hw).le (by linarith))
  have hreadings : k' * q ≤ k * q := Nat.mul_le_mul_right q hcount
  have hfits' : k' < 2 ^ 64 ∧ k' * q < 2 ^ 64 :=
    ⟨hcount.trans_lt hfits.1, hreadings.trans_lt hfits.2⟩
  have hr' : requiredSize? law xs width' method level limit = .ok (some ⟨q, k', k' * q⟩) :=
    requiredSize?_eq_some_iff.mpr ⟨q, t, k', hl, hw', hsize, ht, hk', hfits', rfl⟩
  exact ⟨_, hr', rfl, hcount, hreadings⟩

/-- **The required sample is the least sufficient one, and its numbers are exact.** Let a block size
    `q` be found and let `t` be the critical value for its blocks. For every positive width there is a
    least number `k` of blocks that is enough, the size is given exactly when `k` and `k * q` are below
    `2 ^ 64`, and it is then `k` blocks and `k * q` readings; otherwise, as for a width that is not positive,
    the input breaks a rule. Where a width has a required size, a larger width has one of the same
    block size with at most as many blocks and readings. -/
theorem requiredSize?_least (law : TailLaw ℝ) (xs : List ℝ) (method : MeanMethod) (level limit : ℝ) :
    (∀ q t, blockSize? xs method limit = .ok (some q) →
      StudentT.criticalValue law (xs.length / q - 1) level = .ok t →
      ∃ centre variance, mean xs method = .ok centre ∧
        blockVariance xs q centre method = .ok variance ∧
        (∀ width, 0 < width → ∃ k : ℕ,
          IsLeast {k : ℕ | variance * t ^ 2 ≤ k * (width / 2) ^ 2} k ∧
          (∀ r, requiredSize? law xs width method level limit = .ok (some r) ↔
            k < 2 ^ 64 ∧ k * q < 2 ^ 64 ∧ r = ⟨q, k, k * q⟩) ∧
          (¬ (k < 2 ^ 64 ∧ k * q < 2 ^ 64) →
            ∃ cause, requiredSize? law xs width method level limit = .error (.invalid cause))) ∧
        ∀ width, ¬ 0 < width →
          ∃ cause, requiredSize? law xs width method level limit = .error (.invalid cause)) ∧
    ∀ width width' r, width ≤ width' →
      requiredSize? law xs width method level limit = .ok (some r) →
      ∃ r', requiredSize? law xs width' method level limit = .ok (some r') ∧
        r'.blockSize = r.blockSize ∧ r'.blockCount ≤ r.blockCount ∧
        r'.readingCount ≤ r.readingCount := by
  refine ⟨?_, fun width width' r hle hr => requiredSize?_mono hle hr⟩
  intro q t hsize ht
  have haccepts := (accepts_of_blockSize? hsize).1
  have hl : 0 < level ∧ level < 1 := by
    obtain ⟨_, hlevel, _⟩ := bind_eq_ok_iff.mp ht
    exact require_eq_ok_iff.mp hlevel
  refine ⟨_, decidingVariance xs method q, mean_eq_ok haccepts,
    blockVariance_eq_ok haccepts (two_le_div_of_blockSize? hsize).2 rfl, ?_, ?_⟩
  · intro width hw
    have hk := isLeast_ceil_blockBound (v := decidingVariance xs method q) (t := t) (half_pos hw)
    set k := ⌈blockBound t (decidingVariance xs method q) (width / 2)⌉₊
    have hsome : ∀ r, requiredSize? law xs width method level limit = .ok (some r) ↔
        k < 2 ^ 64 ∧ k * q < 2 ^ 64 ∧ r = ⟨q, k, k * q⟩ := by
      intro r
      rw [requiredSize?_eq_some_iff]
      constructor
      · rintro ⟨q', t', k', _, _, hsize', ht', hk', hfits, rfl⟩
        obtain rfl := Option.some.inj (Except.ok.inj (hsize'.symm.trans hsize))
        obtain rfl := Except.ok.inj (ht'.symm.trans ht)
        obtain rfl := hk'.unique hk
        exact ⟨hfits.1, hfits.2, rfl⟩
      · rintro ⟨hblocks, hreadings, rfl⟩
        exact ⟨q, t, k, hl, hw, hsize, ht, hk, ⟨hblocks, hreadings⟩, rfl⟩
    refine ⟨k, hk, hsome, fun hbig => requiredSize?_of_not_some hsize ?_⟩
    rintro ⟨r, hr⟩
    obtain ⟨hblocks, hreadings, _⟩ := (hsome r).mp hr
    exact hbig ⟨hblocks, hreadings⟩
  · intro width hw
    refine requiredSize?_of_not_some hsize ?_
    rintro ⟨r, hr⟩
    obtain ⟨_, _, _, _, hw', _⟩ := requiredSize?_eq_some_iff.mp hr
    exact hw hw'

/-- Two readings at a level of one half: two blocks are the fewest for a width of one, and a width of
    two needs no more. -/
theorem requiredSize?_least_two :
    ∃ variance, blockVariance [0, 1] 1 (1 / 2) .arithmetic = .ok variance ∧
      IsLeast {k : ℕ | variance * 1 ^ 2 ≤ k * ((1 : ℝ) / 2) ^ 2} 2 ∧
      requiredSize? cauchyLaw [0, 1] 1 .arithmetic (1 / 2) 1 = .ok (some ⟨1, 2, 2⟩) ∧
      ∃ r', requiredSize? cauchyLaw [0, 1] 2 .arithmetic (1 / 2) 1 = .ok (some r') ∧
        r'.blockSize = 1 ∧ r'.blockCount ≤ 2 ∧ r'.readingCount ≤ 2 := by
  have hsize : blockSize? [0, (1 : ℝ)] .arithmetic 1 = .ok (some 1) :=
    blockSize?_one (accepts_arithmetic (by simp)) (by simp)
  obtain ⟨hleast, hmono⟩ := requiredSize?_least cauchyLaw [0, 1] .arithmetic (1 / 2) 1
  obtain ⟨centre, variance, hmean, hvariance, hwidths, _⟩ :=
    hleast 1 1 hsize criticalValue_cauchyLaw
  have hcentre : centre = 1 / 2 := by
    rw [mean_arithmetic_eq_ok (by simp), reduce_arithmetic] at hmean
    rw [← Except.ok.inj hmean]
    norm_num
  subst hcentre
  have hhalf : variance = 1 / 2 := by
    rw [blockVariance_one_eq_ok (by simp), spread_two] at hvariance
    exact (Except.ok.inj hvariance).symm
  obtain ⟨k, hk, hsome, _⟩ := hwidths 1 one_pos
  have htwo : IsLeast {k : ℕ | variance * 1 ^ 2 ≤ k * ((1 : ℝ) / 2) ^ 2} 2 := by
    rw [hhalf]
    constructor
    · norm_num
    · intro j hj
      have hj' : (2 : ℝ) ≤ j := by
        have : (1 / 2 : ℝ) * 1 ^ 2 ≤ j * (1 / 2) ^ 2 := hj
        linarith
      exact_mod_cast hj'
  obtain rfl := hk.unique htwo
  have hr := (hsome ⟨1, 2, 2⟩).mpr ⟨by norm_num, by norm_num, rfl⟩
  exact ⟨variance, hvariance, htwo, hr, hmono 1 2 _ one_le_two hr⟩

end BatchMeans.Series
