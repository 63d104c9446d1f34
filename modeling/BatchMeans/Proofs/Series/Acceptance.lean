import BatchMeans.Proofs.Checked
import BatchMeans.Series.SampleSize

/- What each statistic accepts, and what it then is.

   Every statistic begins with the same checks. `Accepts` is what they ask of
   the series; two blocks fit exactly when `2 ≤ n / q`. For each statistic one
   lemma says that under these conditions, and whatever further number it
   needs, it is its formula, so that later proofs do not open the checks. -/
namespace BatchMeans.Series

/-! ## Checks of a series -/

section Checks
variable {α : Type} [Arith α] {xs : List α} {method : MeanMethod} {q n : Nat} {centre c : α}

/-- A series that has a mean: there are readings, all are finite, and where reciprocals are
    taken none is zero. -/
structure Accepts (xs : List α) (method : MeanMethod) : Prop where
  nonempty : xs ≠ []
  finite : ∀ x ∈ xs, Arith.isFinite x = true
  nonzero : method = .harmonic → ∀ x ∈ xs, ¬ Arith.IsZero x

theorem find?_zipIdx_eq_none_iff {β : Type} (p : β → Bool) (ys : List β) :
    ys.zipIdx.find? (fun y => p y.1) = none ↔ ∀ y ∈ ys, p y = false := by
  have hmap : ys.zipIdx.map Prod.fst = ys := List.zipIdx_map_fst 0 ys
  constructor
  · intro h y hy
    rw [← hmap] at hy
    obtain ⟨z, hz, rfl⟩ := List.mem_map.mp hy
    simpa using List.find?_eq_none.mp h z hz
  · intro h
    refine List.find?_eq_none.mpr fun z hz => ?_
    have hy : z.1 ∈ ys := hmap ▸ List.mem_map_of_mem hz
    simp [h z.1 hy]

theorem checkFinite_eq_ok_iff :
    checkFinite xs = .ok () ↔ xs ≠ [] ∧ ∀ x ∈ xs, Arith.isFinite x = true := by
  have hfind := find?_zipIdx_eq_none_iff (fun x => !Arith.isFinite x) xs
  unfold checkFinite
  split
  · simp_all [refuse]
  · split <;> simp_all [refuse]

theorem checkMethod_eq_ok_iff :
    checkMethod xs method = .ok () ↔ (method = .harmonic → ∀ x ∈ xs, ¬ Arith.IsZero x) := by
  have hfind := find?_zipIdx_eq_none_iff (fun x => decide (Arith.IsZero x)) xs
  cases method with
  | arithmetic => simp [checkMethod]
  | harmonic =>
    simp only [checkMethod]
    split <;> simp_all [refuse]

/-- A series that passes both checks has a mean. -/
theorem Accepts.of_checks {u v : Unit} (hf : checkFinite xs = .ok u) (hm : checkMethod xs method = .ok v) :
    Accepts xs method :=
  have h := checkFinite_eq_ok_iff.mp hf
  ⟨h.1, h.2, checkMethod_eq_ok_iff.mp hm⟩

theorem Accepts.checkFinite_eq_ok (h : Accepts xs method) : checkFinite xs = .ok () :=
  checkFinite_eq_ok_iff.mpr ⟨h.nonempty, h.finite⟩

theorem Accepts.checkMethod_eq_ok (h : Accepts xs method) : checkMethod xs method = .ok () :=
  checkMethod_eq_ok_iff.mpr h.nonzero

theorem checkFinite_onlyInvalid (xs : List α) : OnlyInvalid (checkFinite xs) := by
  unfold checkFinite
  split
  · exact .refuse _
  · split
    · exact .refuse _
    · exact .ok ()

theorem checkMethod_onlyInvalid (xs : List α) (method : MeanMethod) :
    OnlyInvalid (checkMethod xs method) := by
  cases method with
  | arithmetic => exact .ok ()
  | harmonic =>
    simp only [checkMethod]
    split
    · exact .refuse _
    · exact .ok ()

omit [Arith α] in
theorem checkBlockSize_eq_ok_iff :
    (checkBlockSize n q : Checked α Unit) = .ok () ↔ 1 ≤ q ∧ q ≤ n := by
  simp only [checkBlockSize, bind_eq_ok_iff, require_eq_ok_iff, exists_const]

omit [Arith α] in
theorem checkBlockSize_eq_ok (h : 1 ≤ q) (hn : q ≤ n) :
    (checkBlockSize n q : Checked α Unit) = .ok () := checkBlockSize_eq_ok_iff.mpr ⟨h, hn⟩

omit [Arith α] in
theorem one_le_of_checkBlockSize {u : Unit} (h : (checkBlockSize n q : Checked α Unit) = .ok u) :
    1 ≤ q := (checkBlockSize_eq_ok_iff.mp h).1

omit [Arith α] in
theorem checkBlockSize_onlyInvalid (n q : Nat) : OnlyInvalid (checkBlockSize n q : Checked α Unit) :=
  .bind (.require _ _) fun _ _ => .require _ _

/-- Two blocks fit for the sizes from one to half the length, and for no other. -/
theorem two_le_div_iff : 2 ≤ n / q ↔ 1 ≤ q ∧ q ≤ n / 2 := by
  rcases Nat.eq_zero_or_pos q with rfl | hq
  · simp
  · rw [Nat.le_div_iff_mul_le hq, Nat.le_div_iff_mul_le Nat.two_pos, Nat.mul_comm]
    exact ⟨fun h => ⟨hq, h⟩, fun h => h.2⟩

theorem le_length_of_two_le_div (h : 2 ≤ n / q) : q ≤ n := by
  have := (two_le_div_iff.mp h).2
  omega

/-! ## Means and variances -/

theorem mean_eq_ok_iff : mean xs method = .ok c ↔ Accepts xs method ∧ method.reduce xs = c := by
  unfold mean
  constructor
  · intro h
    obtain ⟨_, hf, h⟩ := bind_eq_ok_iff.mp h
    obtain ⟨_, hm, h⟩ := bind_eq_ok_iff.mp h
    exact ⟨.of_checks hf hm, Except.ok.inj h⟩
  · rintro ⟨h, rfl⟩
    simp [h.checkFinite_eq_ok, h.checkMethod_eq_ok]

theorem mean_eq_ok (h : Accepts xs method) : mean xs method = .ok (method.reduce xs) :=
  mean_eq_ok_iff.mpr ⟨h, rfl⟩

theorem mean_onlyInvalid (xs : List α) (method : MeanMethod) : OnlyInvalid (mean xs method) :=
  .bind (checkFinite_onlyInvalid xs) fun _ _ =>
    .bind (checkMethod_onlyInvalid xs method) fun _ _ => .ok _

theorem length_reduceBlocks (xs : List α) (q : Nat) (method : MeanMethod) :
    (reduceBlocks xs q method).length = xs.length / q := by
  simp [reduceBlocks, length_blocks]

theorem blockMeans_eq_ok (h : Accepts xs method) (hq : 1 ≤ q) (hn : q ≤ xs.length) :
    blockMeans xs q method = .ok (reduceBlocks xs q method) := by
  simp [blockMeans, h.checkFinite_eq_ok,
    checkBlockSize_eq_ok hq hn, h.checkMethod_eq_ok]

/-- Block means are given for sizes that fit into a series with a mean. -/
theorem blockMeans_eq_ok_iff {means : List α} : blockMeans xs q method = .ok means ↔
    Accepts xs method ∧ 1 ≤ q ∧ q ≤ xs.length ∧ reduceBlocks xs q method = means := by
  constructor
  · intro hr
    obtain ⟨_, hf, hr⟩ := bind_eq_ok_iff.mp hr
    obtain ⟨⟨⟩, hsize, hr⟩ := bind_eq_ok_iff.mp hr
    obtain ⟨_, hm, hr⟩ := bind_eq_ok_iff.mp hr
    obtain ⟨hq, hn⟩ := checkBlockSize_eq_ok_iff.mp hsize
    exact ⟨.of_checks hf hm, hq, hn, Except.ok.inj hr⟩
  · rintro ⟨h, hq, hn, rfl⟩
    exact blockMeans_eq_ok h hq hn

theorem blockVariance_eq_ok (h : Accepts xs method) (hq : 2 ≤ xs.length / q)
    (hc : Arith.isFinite centre = true) :
    blockVariance xs q centre method = .ok (spread (reduceBlocks xs q method) centre) := by
  have hmeans := blockMeans_eq_ok h (two_le_div_iff.mp hq).1 (le_length_of_two_le_div hq)
  have hlen : 2 ≤ (reduceBlocks xs q method).length := by rwa [length_reduceBlocks]
  simp [blockVariance, hmeans, require_of hlen, require_of hc]

theorem blockVariance_onlyInvalid (xs : List α) (q : Nat) (centre : α) (method : MeanMethod) :
    OnlyInvalid (blockVariance xs q centre method) := by
  have hmeans : OnlyInvalid (blockMeans xs q method) :=
    .bind (checkFinite_onlyInvalid xs) fun _ _ => .bind (checkBlockSize_onlyInvalid _ q) fun _ _ =>
      .bind (checkMethod_onlyInvalid xs method) fun _ _ => .ok _
  exact .bind hmeans fun _ _ => .bind (.require _ _) fun _ _ => .bind (.require _ _) fun _ _ => .ok _

/-- The coefficient of block means that vary: the covariance of neighbours over the variance. -/
def coefficientOf (means : List α) (centre : α) : α :=
  crossSum (means.zip means.tail) centre / Arith.count (means.length - 1) / spread means centre

theorem blockAutocorrelation_eq (h : Accepts xs method) (hq : 2 ≤ xs.length / q)
    (hc : Arith.isFinite centre = true) :
    blockAutocorrelation xs q centre method =
      if Arith.IsZero (spread (reduceBlocks xs q method) centre) then
        .error (.undefined (.zeroBlockVariance centre q))
      else .ok (coefficientOf (reduceBlocks xs q method) centre) := by
  simp [blockAutocorrelation, h.checkFinite_eq_ok,
    checkBlockSize_eq_ok (two_le_div_iff.mp hq).1 (le_length_of_two_le_div hq),
    h.checkMethod_eq_ok, require_of hc, require_of hq, coefficientOf, spread,
    length_reduceBlocks]

theorem blockAutocorrelation_of_not_finite (h : Accepts xs method)
    (hq : 2 ≤ xs.length / q) (hc : ¬ Arith.isFinite centre = true) :
    blockAutocorrelation xs q centre method = .error (.invalid (.sampleMeanNotFinite centre)) := by
  simp [blockAutocorrelation, h.checkFinite_eq_ok,
    checkBlockSize_eq_ok (two_le_div_iff.mp hq).1 (le_length_of_two_le_div hq),
    h.checkMethod_eq_ok, require_of_not hc]

theorem blockAutocorrelation_admissible (h : Admissible (blockAutocorrelation xs q centre method)) :
    Accepts xs method ∧ 2 ≤ xs.length / q ∧ Arith.isFinite centre = true := by
  obtain ⟨_, hf, h⟩ := h.of_bind (checkFinite_onlyInvalid xs)
  obtain ⟨_, _, h⟩ := h.of_bind (checkBlockSize_onlyInvalid _ q)
  obtain ⟨_, hm, h⟩ := h.of_bind (checkMethod_onlyInvalid xs method)
  obtain ⟨_, hc, h⟩ := h.of_bind (.require _ _)
  obtain ⟨_, hq, _⟩ := h.of_bind (.require _ _)
  exact ⟨.of_checks hf hm, require_eq_ok_iff.mp hq, require_eq_ok_iff.mp hc⟩

/-- A coefficient between blocks is given for two blocks or more that vary. -/
theorem blockAutocorrelation_eq_ok_iff : blockAutocorrelation xs q centre method = .ok c ↔
    Accepts xs method ∧ 2 ≤ xs.length / q ∧ Arith.isFinite centre = true ∧
      ¬ Arith.IsZero (spread (reduceBlocks xs q method) centre) ∧
      coefficientOf (reduceBlocks xs q method) centre = c := by
  constructor
  · intro hr
    obtain ⟨h, hq, hc⟩ := blockAutocorrelation_admissible (.of_ok hr)
    rw [blockAutocorrelation_eq h hq hc] at hr
    split at hr
    · cases hr
    · next hvariance => exact ⟨h, hq, hc, hvariance, Except.ok.inj hr⟩
  · rintro ⟨h, hq, hc, hvariance, rfl⟩
    rw [blockAutocorrelation_eq h hq hc, if_neg hvariance]

theorem lagAutocorrelation_eq {lag : Nat} (hne : xs ≠ []) (hf : ∀ x ∈ xs, Arith.isFinite x = true)
    (hlag : lag < xs.length) (hc : Arith.isFinite centre = true) :
    lagAutocorrelation xs lag centre =
      if Arith.IsZero (squareSum xs centre) then .error (.undefined (.zeroVariance centre))
      else .ok (crossSum (xs.zip (xs.drop lag)) centre / squareSum xs centre) := by
  simp [lagAutocorrelation, checkFinite_eq_ok_iff.mpr ⟨hne, hf⟩, require_of hlag, require_of hc]

theorem lagAutocorrelation_admissible {lag : Nat} (h : Admissible (lagAutocorrelation xs lag centre)) :
    xs ≠ [] ∧ (∀ x ∈ xs, Arith.isFinite x = true) ∧ lag < xs.length ∧ Arith.isFinite centre = true := by
  obtain ⟨⟨⟩, hf, h⟩ := h.of_bind (checkFinite_onlyInvalid xs)
  obtain ⟨_, hlag, h⟩ := h.of_bind (.require _ _)
  obtain ⟨_, hc, _⟩ := h.of_bind (.require _ _)
  obtain ⟨hne, hfinite⟩ := checkFinite_eq_ok_iff.mp hf
  exact ⟨hne, hfinite, require_eq_ok_iff.mp hlag, require_eq_ok_iff.mp hc⟩

/-- A coefficient between readings is given for a lag within a series that varies. -/
theorem lagAutocorrelation_eq_ok_iff {lag : Nat} : lagAutocorrelation xs lag centre = .ok c ↔
    xs ≠ [] ∧ (∀ x ∈ xs, Arith.isFinite x = true) ∧ lag < xs.length ∧
      Arith.isFinite centre = true ∧ ¬ Arith.IsZero (squareSum xs centre) ∧
      crossSum (xs.zip (xs.drop lag)) centre / squareSum xs centre = c := by
  constructor
  · intro hr
    obtain ⟨hne, hf, hlag, hc⟩ := lagAutocorrelation_admissible (.of_ok hr)
    rw [lagAutocorrelation_eq hne hf hlag hc] at hr
    split at hr
    · cases hr
    · next hvariance => exact ⟨hne, hf, hlag, hc, hvariance, Except.ok.inj hr⟩
  · rintro ⟨hne, hf, hlag, hc, hvariance, rfl⟩
    rw [lagAutocorrelation_eq hne hf hlag hc, if_neg hvariance]

end Checks

/-! ## Critical values -/

section CriticalValues
variable {α : Type} [Arith α] {law : TailLaw α} {df : Nat} {level t : α}

/-- A critical value is the starting quantile after a few steps. -/
theorem criticalValue_eq_polish (law : TailLaw α) (hl : 0 < level ∧ level < 1) (hdf : 1 ≤ df) :
    StudentT.criticalValue law df level = .ok (StudentT.polish law df (StudentT.tailOfLevel level) 4
      (law.quantile df (1 - StudentT.tailOfLevel level))) := by
  simp only [StudentT.criticalValue, StudentT.checkLevel, require_of hl, require_of hdf, ok_bind, pure_eq_ok]

theorem exists_criticalValue (hl : 0 < level ∧ level < 1) (hdf : 1 ≤ df) :
    ∃ t, StudentT.criticalValue law df level = .ok t := ⟨_, criticalValue_eq_polish law hl hdf⟩

/-- Two blocks leave a degree of freedom. -/
theorem exists_criticalValue_of_two_le_div {n q : Nat} (law : TailLaw α) (hl : 0 < level ∧ level < 1)
    (hq : 2 ≤ n / q) : ∃ t, StudentT.criticalValue law (n / q - 1) level = .ok t :=
  exists_criticalValue hl (by omega)

theorem criticalValue_onlyInvalid (law : TailLaw α) (df : Nat) (level : α) :
    OnlyInvalid (StudentT.criticalValue law df level) :=
  .bind (.require _ _) fun _ _ => .bind (.require _ _) fun _ _ => .ok _

/-- A value that is not positive and finite is not polished. -/
theorem polish_of_not_isPositive (h : ¬ Arith.IsPositive t) (df : Nat) (alpha : α) :
    ∀ steps, StudentT.polish law df alpha steps t = t
  | 0 => rfl
  | steps + 1 => by rw [StudentT.polish, if_neg fun hpos => h hpos.2]

end CriticalValues

/-! ## Intervals and sample sizes -/

section Widths
variable {α : Type} [RootArith α] {law : TailLaw α} {xs : List α} {method : MeanMethod}
  {q df : Nat} {level limit t width bound : α}

/-- The point that an anchor names. -/
def anchorPoint (xs means : List α) (method : MeanMethod) : Anchor → α
  | .blockMeans => MeanMethod.arithmetic.reduce means
  | .sample => method.reduce xs

/-- The interval around a point, from the means of the blocks of `q` readings of a series of `n`. -/
def blockInterval (law : TailLaw α) (means : List α) (n q : Nat) (level point : α) :
    Checked α (Interval α) := do
  StudentT.checkLevel level
  require (2 ≤ n / q) (.tooFewBlocks .interval (n / q) n q)
  let t ← StudentT.criticalValue law (n / q - 1) level
  return ⟨point, halfWidth t (spread means (MeanMethod.arithmetic.reduce means)) (n / q), level⟩

/-- Of a series with block means an interval looks at their number, at the means themselves, and at the
    point that the anchor names. -/
theorem confidenceInterval_eq_blockInterval (law : TailLaw α) (h : Accepts xs method) (hq : 1 ≤ q)
    (hn : q ≤ xs.length) (level : α) (anchor : Anchor) :
    confidenceInterval law xs q level method anchor =
      blockInterval law (reduceBlocks xs q method) xs.length q level
        (anchorPoint xs (reduceBlocks xs q method) method anchor) := by
  simp only [confidenceInterval, blockInterval, h.checkFinite_eq_ok,
    checkBlockSize_eq_ok hq hn, h.checkMethod_eq_ok, ok_bind]
  cases anchor <;> rfl

/-- Two intervals of one half width and one level, or one refusal twice. -/
inductive SameWidth : Checked α (Interval α) → Checked α (Interval α) → Prop where
  | refused (e : Fault α) : SameWidth (.error e) (.error e)
  | given (x y width level : α) : SameWidth (.ok ⟨x, width, level⟩) (.ok ⟨y, width, level⟩)

omit [RootArith α] in
theorem SameWidth.bind {β : Type} {x : Checked α β} {f g : β → Checked α (Interval α)}
    (h : ∀ b, SameWidth (f b) (g b)) : SameWidth (x >>= f) (x >>= g) := by
  cases x with
  | error e => exact .refused e
  | ok b => exact h b

omit [RootArith α] in
theorem SameWidth.map_halfWidth {i j : Checked α (Interval α)} (h : SameWidth i j) :
    i.map Interval.halfWidth = j.map Interval.halfWidth := by
  cases h <;> rfl

/-- The half width, or the refusal, does not depend on the point. -/
theorem halfWidth_blockInterval (law : TailLaw α) (means : List α) (n q : Nat) (level x y : α) :
    (blockInterval law means n q level x).map Interval.halfWidth =
      (blockInterval law means n q level y).map Interval.halfWidth := by
  apply SameWidth.map_halfWidth
  exact .bind fun _ => .bind fun _ => .bind fun _ => .given x y _ level

/-- Nor does it depend on the anchor, whatever the input. -/
theorem sameWidth_confidenceInterval (law : TailLaw α) (xs : List α) (q : Nat) (level : α)
    (method : MeanMethod) (anchor anchor' : Anchor) :
    SameWidth (confidenceInterval law xs q level method anchor)
      (confidenceInterval law xs q level method anchor') :=
  .bind fun _ => .bind fun _ => .bind fun _ => .bind fun _ => .bind fun _ => .bind fun _ =>
    .given _ _ _ level

theorem confidenceInterval_eq_ok (h : Accepts xs method) (hl : 0 < level ∧ level < 1)
    (hq : 2 ≤ xs.length / q)
    (ht : StudentT.criticalValue law (xs.length / q - 1) level = .ok t) (anchor : Anchor) :
    confidenceInterval law xs q level method anchor =
      .ok ⟨anchorPoint xs (reduceBlocks xs q method) method anchor,
        halfWidth t (spread (reduceBlocks xs q method)
          (MeanMethod.arithmetic.reduce (reduceBlocks xs q method))) (xs.length / q), level⟩ := by
  rw [confidenceInterval_eq_blockInterval law h (two_le_div_iff.mp hq).1 (le_length_of_two_le_div hq)]
  simp only [blockInterval, StudentT.checkLevel, require_of hl, require_of hq, ht, ok_bind, pure_eq_ok]

/-- An interval is given at a level between zero and one, for two blocks or more of a series with a mean. -/
theorem confidenceInterval_eq_ok_iff {anchor : Anchor} {i : Interval α} :
    confidenceInterval law xs q level method anchor = .ok i ↔
      (0 < level ∧ level < 1) ∧ Accepts xs method ∧ 2 ≤ xs.length / q ∧
      ∃ t, StudentT.criticalValue law (xs.length / q - 1) level = .ok t ∧
        ⟨anchorPoint xs (reduceBlocks xs q method) method anchor, halfWidth t (spread (reduceBlocks xs q method)
          (MeanMethod.arithmetic.reduce (reduceBlocks xs q method))) (xs.length / q), level⟩ = i := by
  constructor
  · intro hi
    obtain ⟨_, hlevel, hrest⟩ := bind_eq_ok_iff.mp hi
    obtain ⟨_, hf, hrest⟩ := bind_eq_ok_iff.mp hrest
    obtain ⟨_, _, hrest⟩ := bind_eq_ok_iff.mp hrest
    obtain ⟨_, hm, hrest⟩ := bind_eq_ok_iff.mp hrest
    obtain ⟨_, hblocks, hrest⟩ := bind_eq_ok_iff.mp hrest
    obtain ⟨t, ht, _⟩ := bind_eq_ok_iff.mp hrest
    have h : Accepts xs method := .of_checks hf hm
    have hl : 0 < level ∧ level < 1 := require_eq_ok_iff.mp hlevel
    have hq : 2 ≤ xs.length / q := require_eq_ok_iff.mp hblocks
    rw [confidenceInterval_eq_ok h hl hq ht anchor] at hi
    exact ⟨hl, h, hq, t, ht, Except.ok.inj hi⟩
  · rintro ⟨hl, h, hq, t, ht, rfl⟩
    exact confidenceInterval_eq_ok h hl hq ht anchor

theorem exists_confidenceInterval_iff {anchor : Anchor} :
    (∃ i, confidenceInterval law xs q level method anchor = .ok i) ↔
      (0 < level ∧ level < 1) ∧ Accepts xs method ∧ 2 ≤ xs.length / q := by
  constructor
  · rintro ⟨i, hi⟩
    obtain ⟨hl, h, hq, _⟩ := confidenceInterval_eq_ok_iff.mp hi
    exact ⟨hl, h, hq⟩
  · rintro ⟨hl, h, hq⟩
    obtain ⟨t, ht⟩ := exists_criticalValue_of_two_le_div law hl hq
    exact ⟨_, confidenceInterval_eq_ok h hl hq ht anchor⟩

theorem confidenceInterval_onlyInvalid (law : TailLaw α) (xs : List α) (q : Nat) (level : α)
    (method : MeanMethod) (anchor : Anchor) :
    OnlyInvalid (confidenceInterval law xs q level method anchor) :=
  .bind (.require _ _) fun _ _ => .bind (checkFinite_onlyInvalid xs) fun _ _ =>
    .bind (checkBlockSize_onlyInvalid _ q) fun _ _ =>
      .bind (checkMethod_onlyInvalid xs method) fun _ _ => .bind (.require _ _) fun _ _ =>
        .bind (criticalValue_onlyInvalid law _ level) fun _ _ => .ok _

/-- How many blocks a bound asks for, when that many and their readings can be counted. -/
def Countable (q : Nat) (bound : α) (count : Nat) : Prop :=
  RootArith.ceilNat bound = some count ∧ count < SampleSize.countLimit ∧
    count * q < SampleSize.countLimit

theorem ofBound_eq_ok_iff {r : SampleSize} :
    SampleSize.ofBound width q bound = .ok r ↔
      ∃ count, Countable q bound count ∧ r = ⟨q, count, count * q⟩ := by
  unfold SampleSize.ofBound Countable
  cases RootArith.ceilNat bound with
  | none => simp [refuse]
  | some count =>
    simp only [bind_eq_ok_iff, require_eq_ok_iff, pure_eq_ok, Option.some.injEq, Except.ok.injEq]
    constructor
    · rintro ⟨_, hc, _, hr, rfl⟩
      exact ⟨count, ⟨rfl, hc, hr⟩, rfl⟩
    · rintro ⟨_, ⟨rfl, hc, hr⟩, rfl⟩
      exact ⟨(), hc, (), hr, rfl⟩

theorem ofBound_onlyInvalid (width : α) (q : Nat) (bound : α) :
    OnlyInvalid (SampleSize.ofBound width q bound) := by
  unfold SampleSize.ofBound
  split
  · exact .refuse _
  · exact .bind (.require _ _) fun _ _ => .bind (.require _ _) fun _ _ => .ok _

end Widths
end BatchMeans.Series
