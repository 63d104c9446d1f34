import BatchMeans.Analysis.Analyze
import BatchMeans.Proofs.Series.LeastBlockSize
import BatchMeans.StudentT.Double

/- What a successful analysis is, and exactly when an analysis is refused.

   The functions that an analysis calls check their input again and search for
   the block size again. `Analyzed` is what comes out once all of these checks
   are accounted for: a series of one reading, a series without a block size,
   or a series with the least size that qualifies and the numbers for it.
   `analyze_eq_ok_iff` says that an analysis of acceptable input is this and
   nothing else; that the checks of the later functions cannot fail follows
   from the success of the search. What is left to refuse an analysis is its
   own input, a mean that is not finite, and a count out of range
   (`Uncountable`), and each of these is a broken rule. -/
namespace BatchMeans

namespace Settings
variable {α : Type} [Arith α] {s : Settings α}

/-- Settings that pass their check. -/
structure Valid (s : Settings α) : Prop where
  level : 0 < s.level ∧ s.level < 1
  limit : 0 < s.limit ∧ s.limit ≤ 1
  width : ∀ width, s.width = some width → Arith.IsPositive width

theorem check_eq_ok_iff : s.check = .ok () ↔ s.Valid := by
  unfold check checkWidth
  simp only [bind_eq_ok_iff, require_eq_ok_iff]
  constructor
  · rintro ⟨_, hlevel, _, hlimit, hwidth⟩
    refine ⟨hlevel, hlimit, fun width hw => ?_⟩
    rw [hw] at hwidth
    exact require_eq_ok_iff.mp hwidth
  · intro h
    refine ⟨(), h.level, (), h.limit, ?_⟩
    cases hw : s.width with
    | none => rfl
    | some width => exact require_of (h.width width hw)

theorem check_onlyInvalid (s : Settings α) : OnlyInvalid s.check :=
  .bind (.require _ _) fun _ _ => .bind (.require _ _) fun _ _ => by
    split
    · exact .require _ _
    · exact .ok ()

end Settings

namespace Series
variable {α : Type} [RootArith α] {law : TailLaw α} {xs : List α} {s : Settings α} {q : Nat}
  {t : α} {a : Analysis α} {b : BlockAnalysis α}

/-! ## What an analysis is -/

/-- The bound on the number of blocks of `q` readings that a width asks for. -/
def requiredBound (xs : List α) (s : Settings α) (q : Nat) (t width : α) : α :=
  blockBound t (spread (reduceBlocks xs q s.method) (s.method.reduce xs)) (width / Arith.count 2)

/-- The sample size that the settings ask for: none unless a width is aimed at. -/
inductive Requires (xs : List α) (s : Settings α) (q : Nat) (t : α) : Option SampleSize → Prop where
  | nothing : s.width = none → Requires xs s q t none
  | blocks {width : α} {count : Nat} : s.width = some width →
    Countable q (requiredBound xs s q t width) count → Requires xs s q t (some ⟨q, count, count * q⟩)

/-- The part about blocks of `q` readings. -/
def blockPart (xs : List α) (s : Settings α) (q : Nat) (t : α) (required : Option SampleSize) :
    BlockAnalysis α where
  blockSize := q
  interval := ⟨s.method.reduce xs, halfWidth t (spread (reduceBlocks xs q s.method)
    (MeanMethod.arithmetic.reduce (reduceBlocks xs q s.method))) (xs.length / q), s.level⟩
  variance := spread (reduceBlocks xs q s.method) (s.method.reduce xs)
  coefficient := (blockAutocorrelation xs q (s.method.reduce xs) s.method).toOption
  required := required

/-- What comes out of an analysis. -/
inductive Analyzed (law : TailLaw α) (xs : List α) (s : Settings α) : Analysis α → Prop where
  | single : xs.length < 2 → Analyzed law xs s ⟨xs.length, s.method.reduce xs, none⟩
  | unsized : 2 ≤ xs.length → Arith.isFinite (s.method.reduce xs) = true →
    (∀ q, ¬ Qualifies xs (s.method.reduce xs) s.method s.limit q) →
    Analyzed law xs s ⟨xs.length, s.method.reduce xs, none⟩
  | sized {q : Nat} {t : α} {required : Option SampleSize} : 2 ≤ xs.length →
    Arith.isFinite (s.method.reduce xs) = true →
    IsLeast {q | Qualifies xs (s.method.reduce xs) s.method s.limit q} q →
    StudentT.criticalValue law (xs.length / q - 1) s.level = .ok t →
    Requires xs s q t required →
    Analyzed law xs s ⟨xs.length, s.method.reduce xs, some (blockPart xs s q t required)⟩

/-- The required size once a block size is found: the number of blocks that the variance asks for. -/
theorem requiredSize?_eq {method : MeanMethod} {level limit width : α} (hl : 0 < level ∧ level < 1)
    (hw : Arith.IsPositive width) (h : Accepts xs method)
    (hsize : blockSize? xs method limit = .ok (some q)) (hq : 2 ≤ xs.length / q)
    (hc : Arith.isFinite (method.reduce xs) = true)
    (ht : StudentT.criticalValue law (xs.length / q - 1) level = .ok t) :
    requiredSize? law xs width method level limit =
      (SampleSize.ofBound width q (blockBound t
        (spread (reduceBlocks xs q method) (method.reduce xs)) (width / Arith.count 2)) >>=
        fun r => .ok (some r)) := by
  simp [requiredSize?, StudentT.checkLevel, require_of hl, require_of hw, hsize, ht, mean_eq_ok h,
    blockVariance_eq_ok h hq hc]

theorem analyzeBlocks_eq_ok_iff (hv : s.Valid) (h : Accepts xs s.method)
    (hsize : blockSize? xs s.method s.limit = .ok (some q)) (hq : 2 ≤ xs.length / q)
    (hc : Arith.isFinite (s.method.reduce xs) = true)
    (ht : StudentT.criticalValue law (xs.length / q - 1) s.level = .ok t) :
    analyzeBlocks law xs s (s.method.reduce xs) q = .ok b ↔
      ∃ required, Requires xs s q t required ∧ b = blockPart xs s q t required := by
  have hinterval := confidenceInterval_eq_ok h hv.level hq ht .sample
  simp only [analyzeBlocks, hinterval, blockVariance_eq_ok h hq hc, ok_bind]
  cases hw : s.width with
  | none =>
    simp only [pure_eq_ok, ok_bind]
    constructor
    · intro hb
      exact ⟨none, .nothing hw, (Except.ok.inj hb).symm⟩
    · rintro ⟨_, hr, rfl⟩
      cases hr with
      | nothing => rfl
      | blocks hw' => simp [hw] at hw'
  | some width =>
    simp only [requiredSize?_eq hv.level (hv.width width hw) h hsize hq hc ht, bind_eq_ok_iff,
      ofBound_eq_ok_iff]
    constructor
    · rintro ⟨_, ⟨_, ⟨count, hcount, rfl⟩, ⟨⟩⟩, ⟨⟩⟩
      exact ⟨_, .blocks hw hcount, rfl⟩
    · rintro ⟨_, hr, rfl⟩
      cases hr with
      | nothing hw' => simp [hw] at hw'
      | blocks hw' hcount =>
        obtain rfl := Option.some.inj (hw.symm.trans hw')
        exact ⟨_, ⟨_, ⟨_, hcount, rfl⟩, rfl⟩, rfl⟩

/-- An analysis of acceptable input is what `Analyzed` says. -/
theorem analyze_eq_analyzed [OrderedArith α] (hv : s.Valid) (h : Accepts xs s.method) :
    analyze law xs s = .ok a ↔ Analyzed law xs s a := by
  simp only [analyze, Settings.check_eq_ok_iff.mpr hv, mean_eq_ok h, ok_bind, pure_eq_ok]
  by_cases hn : xs.length < 2
  · rw [if_pos hn]
    constructor
    · rintro ⟨⟩
      exact .single hn
    · intro ha
      cases ha <;> first | rfl | omega
  rw [if_neg hn]
  have hn2 : 2 ≤ xs.length := Nat.le_of_not_lt hn
  have hl : 0 ≤ s.limit := OrderedArith.le_of_lt hv.limit.1
  -- A mean that is not finite is refused by the search, at its first size.
  by_cases hc : Arith.isFinite (s.method.reduce xs) = true
  · obtain ⟨r, hr, hleast⟩ := blockSize?_isLeastOf h hn2 hc hl
    rw [hr, ok_bind]
    cases r with
    | none =>
      constructor
      · rintro ⟨⟩
        exact .unsized hn2 hc hleast
      · intro ha
        cases ha with
        | single _ => rfl
        | unsized _ _ _ => rfl
        | sized _ _ hq _ _ => exact absurd hq.1 (hleast _)
    | some q =>
      -- A size that was found leaves two blocks, hence a degree of freedom.
      have hq : 2 ≤ xs.length / q := hleast.1.two_le_div
      obtain ⟨t, ht⟩ := exists_criticalValue_of_two_le_div law hv.level hq
      simp only [bind_eq_ok_iff, analyzeBlocks_eq_ok_iff hv h hr hq hc ht]
      constructor
      · rintro ⟨_, ⟨required, hreq, rfl⟩, ⟨⟩⟩
        exact .sized hn2 hc hleast ht hreq
      · intro ha
        cases ha with
        | single hlt => exact absurd hlt hn
        | unsized _ _ hnone => exact absurd hleast.1 (hnone q)
        | sized _ _ hq' ht' hreq =>
          obtain rfl := hleast.unique hq'
          obtain rfl := Except.ok.inj (ht.symm.trans ht')
          exact ⟨_, ⟨_, hreq, rfl⟩, rfl⟩
  · simp only [blockSize?_of_not_finite h hn2 hc hl, error_bind]
    constructor
    · rintro ⟨⟩
    · intro ha
      cases ha with
      | single hlt => exact absurd hlt hn
      | unsized _ hfin _ => exact absurd hfin hc
      | sized _ hfin _ _ _ => exact absurd hfin hc

/-- What an analysis needs, and what it then is. -/
theorem analyze_eq_ok_iff [OrderedArith α] :
    analyze law xs s = .ok a ↔ s.Valid ∧ Accepts xs s.method ∧ Analyzed law xs s a := by
  constructor
  · intro ha
    obtain ⟨⟨⟩, hs, hrest⟩ := bind_eq_ok_iff.mp ha
    obtain ⟨_, hmean, _⟩ := bind_eq_ok_iff.mp hrest
    have hv := Settings.check_eq_ok_iff.mp hs
    have h := (mean_eq_ok_iff.mp hmean).1
    exact ⟨hv, h, (analyze_eq_analyzed hv h).mp ha⟩
  · rintro ⟨hv, h, ha⟩
    exact (analyze_eq_analyzed hv h).mpr ha

/-! ## When an analysis is refused -/

/-- A block size was found and a width is aimed at, but the number of blocks that the width
    needs, which is `variance * (t / (width / 2)) ^ 2` rounded up, or of readings in them, is not one that
    can be counted. -/
def Uncountable (law : TailLaw α) (xs : List α) (s : Settings α) : Prop :=
  ∃ q width t variance, blockSize? xs s.method s.limit = .ok (some q) ∧ s.width = some width ∧
    StudentT.criticalValue law (xs.length / q - 1) s.level = .ok t ∧
    blockVariance xs q (s.method.reduce xs) s.method = .ok variance ∧
    ¬ ∃ count, Countable q
      (variance * (t / (width / Arith.count 2) * (t / (width / Arith.count 2)))) count

theorem exists_requires (hcount : ∀ width, s.width = some width →
    ∃ count, Countable q (requiredBound xs s q t width) count) :
    ∃ required, Requires xs s q t required := by
  cases hw : s.width with
  | none => exact ⟨none, .nothing hw⟩
  | some width =>
    obtain ⟨count, hc⟩ := hcount width hw
    exact ⟨_, .blocks hw hc⟩

/-- An analysis is never refused for anything but a mean that is not finite or a count out of
    range. -/
theorem exists_analyzed_iff [OrderedArith α] (hv : s.Valid) (h : Accepts xs s.method) :
    (∃ a, Analyzed law xs s a) ↔
      (2 ≤ xs.length → Arith.isFinite (s.method.reduce xs) = true) ∧ ¬ Uncountable law xs s := by
  have hl : 0 ≤ s.limit := OrderedArith.le_of_lt hv.limit.1
  constructor
  · rintro ⟨a, ha⟩
    refine ⟨?_, ?_⟩
    · intro hn
      cases ha with
      | single hlt => omega
      | unsized _ hc _ => exact hc
      | sized _ hc _ _ _ => exact hc
    · rintro ⟨q, width, t, variance, hsize, hw, ht, hvar, hno⟩
      have hn := length_of_blockSize? hsize
      cases ha with
      | single hlt => omega
      | unsized _ hc hnone =>
        exact hnone q ((blockSize?_eq_some_iff h hn hc hl).mp hsize).1
      | sized _ hc hleast ht' hreq =>
        -- The numbers of the analysis are those that the refusal speaks of.
        obtain rfl := ((blockSize?_eq_some_iff h hn hc hl).mp hsize).unique hleast
        obtain rfl := Except.ok.inj (ht.symm.trans ht')
        obtain rfl := Except.ok.inj (hvar.symm.trans (blockVariance_eq_ok h hleast.1.two_le_div hc))
        cases hreq with
        | nothing hw' => simp [hw] at hw'
        | blocks hw' hcount =>
          obtain rfl := Option.some.inj (hw.symm.trans hw')
          exact hno ⟨_, hcount⟩
  · rintro ⟨hfin, hcountable⟩
    by_cases hn : xs.length < 2
    · exact ⟨_, .single hn⟩
    have hn2 : 2 ≤ xs.length := Nat.le_of_not_lt hn
    have hc := hfin hn2
    obtain ⟨r, hr, hleast⟩ := blockSize?_isLeastOf h hn2 hc hl
    cases r with
    | none => exact ⟨_, .unsized hn2 hc hleast⟩
    | some q =>
      have hq : 2 ≤ xs.length / q := hleast.1.two_le_div
      obtain ⟨t, ht⟩ := exists_criticalValue_of_two_le_div law hv.level hq
      obtain ⟨required, hreq⟩ : ∃ required, Requires xs s q t required := by
        refine exists_requires fun width hw => ?_
        by_contra hno
        exact hcountable ⟨q, width, t, _, hr, hw, ht, blockVariance_eq_ok h hq hc, hno⟩
      exact ⟨_, .sized hn2 hc hleast ht hreq⟩

theorem requiredSize?_onlyInvalid (law : TailLaw α) (xs : List α) (width : α) (method : MeanMethod)
    (level limit : α) : OnlyInvalid (requiredSize? law xs width method level limit) :=
  .bind (.require _ _) fun _ _ => .bind (.require _ _) fun _ _ =>
    .bind (blockSize?_onlyInvalid _ _ _) fun found _ => by
      cases found with
      | none => exact .ok none
      | some q =>
        exact .bind (criticalValue_onlyInvalid _ _ _) fun _ _ => .bind (mean_onlyInvalid _ _) fun _ _ =>
          .bind (blockVariance_onlyInvalid _ _ _ _) fun _ _ =>
            .bind (ofBound_onlyInvalid _ _ _) fun _ _ => .ok _

theorem analyzeBlocks_onlyInvalid (law : TailLaw α) (xs : List α) (s : Settings α) (centre : α)
    (q : Nat) : OnlyInvalid (analyzeBlocks law xs s centre q) :=
  .bind (confidenceInterval_onlyInvalid _ _ _ _ _ _) fun _ _ =>
    .bind (blockVariance_onlyInvalid _ _ _ _) fun _ _ => by
      cases s.width with
      | none => exact .ok _
      | some width => exact .bind (requiredSize?_onlyInvalid _ _ _ _ _ _) fun _ _ => .ok _

theorem analyze_onlyInvalid (law : TailLaw α) (xs : List α) (s : Settings α) :
    OnlyInvalid (analyze law xs s) :=
  .bind (Settings.check_onlyInvalid s) fun _ _ => .bind (mean_onlyInvalid _ _) fun _ _ => by
    split
    · exact .ok _
    · refine .bind (blockSize?_onlyInvalid _ _ _) fun found _ => ?_
      cases found with
      | none => exact .ok _
      | some q => exact .bind (analyzeBlocks_onlyInvalid _ _ _ _ _) fun _ _ => .ok _

/-! ## Coherence -/

/-- The parts of an analysis agree with one another and with the settings. -/
structure Coherent (xs : List α) (s : Settings α) (a : Analysis α) : Prop where
  sampleSize : a.sampleSize = xs.length
  mean : mean xs s.method = .ok a.mean
  blockSize_eq_none_iff : a.blockSize = none ↔
    xs.length = 1 ∨ ∀ q, ¬ Qualifies xs a.mean s.method s.limit q
  of_blockSize_eq_none : a.blockSize = none →
    a.interval = none ∧ a.variance = none ∧ a.coefficient = none ∧ a.required = none
  interval : ∀ q, a.blockSize = some q →
    ∃ i, a.interval = some i ∧ i.point = a.mean ∧ i.level = s.level
  variance : ∀ q, a.blockSize = some q → ∃ v, a.variance = some v
  required_isSome : ∀ q, a.blockSize = some q → a.required.isSome = s.width.isSome
  required : ∀ q r, a.blockSize = some q → a.required = some r →
    r.blockSize = q ∧ r.readingCount = r.blockCount * q

theorem Analyzed.coherent (h : Accepts xs s.method) (ha : Analyzed law xs s a) :
    Coherent xs s a := by
  have hmean := mean_eq_ok h
  cases ha with
  | single hlt =>
    have hpos : 0 < xs.length := List.length_pos_iff.mpr h.nonempty
    have hone : xs.length = 1 := by omega
    exact ⟨rfl, hmean, ⟨fun _ => .inl hone, fun _ => rfl⟩, fun _ => ⟨rfl, rfl, rfl, rfl⟩,
      fun _ hq => (nomatch hq), fun _ hq => (nomatch hq), fun _ hq => (nomatch hq),
      fun _ _ hq => (nomatch hq)⟩
  | unsized _ _ hnone =>
    exact ⟨rfl, hmean, ⟨fun _ => .inr hnone, fun _ => rfl⟩, fun _ => ⟨rfl, rfl, rfl, rfl⟩,
      fun _ hq => (nomatch hq), fun _ hq => (nomatch hq), fun _ hq => (nomatch hq),
      fun _ _ hq => (nomatch hq)⟩
  | @sized q t required hn _ hleast _ hreq =>
    refine ⟨rfl, hmean, ⟨fun hq => (nomatch hq), ?_⟩, fun hq => (nomatch hq),
      fun _ _ => ⟨_, rfl, rfl, rfl⟩, fun _ _ => ⟨_, rfl⟩, ?_, ?_⟩
    · rintro (hone | hnone)
      · omega
      · exact absurd hleast.1 (hnone q)
    · intro _ _
      cases hreq with
      | nothing hw => rw [hw]; rfl
      | blocks hw _ => rw [hw]; rfl
    · intro q' r hq hr
      obtain rfl : q = q' := Option.some.inj hq
      cases hreq with
      | nothing _ => cases hr
      | blocks _ _ =>
        obtain rfl := Option.some.inj hr
        exact ⟨rfl, rfl⟩

/-- **An analysis is coherent, and its refusals are exactly known.** It is refused for settings
    that fail their check, for a series without a mean, for a mean of two readings or more that
    is not finite, and for a count out of range; never for anything else, and always for a
    broken rule. What it gives is coherent. -/
theorem analyze_coherent [OrderedArith α] (law : TailLaw α) (xs : List α) (s : Settings α) :
    ((∃ e, analyze law xs s = .error e) ↔
      (∃ e, s.check = .error e) ∨ ¬ Accepts xs s.method ∨
      (2 ≤ xs.length ∧ ¬ Arith.isFinite (s.method.reduce xs) = true) ∨ Uncountable law xs s) ∧
    (∀ e, analyze law xs s = .error e → ∃ cause, e = .invalid cause) ∧
    ∀ a, analyze law xs s = .ok a → Coherent xs s a := by
  refine ⟨?_, analyze_onlyInvalid law xs s, ?_⟩
  · have hcheck : (∃ u, s.check = .ok u) ↔ s.Valid :=
      ⟨fun ⟨_, hu⟩ => Settings.check_eq_ok_iff.mp hu, fun hv => ⟨(), Settings.check_eq_ok_iff.mpr hv⟩⟩
    rw [exists_error_iff, exists_error_iff, hcheck]
    -- Each kind of refusal denies one part of `analyze_eq_ok_iff`.
    simp only [analyze_eq_ok_iff, exists_and_left]
    by_cases hv : s.Valid
    · by_cases h : Accepts xs s.method
      · rw [exists_analyzed_iff hv h]
        tauto
      · tauto
    · tauto
  · intro a ha
    obtain ⟨_, h, ha⟩ := analyze_eq_ok_iff.mp ha
    exact ha.coherent h

/-- Student's t with one degree of freedom around its critical value at the level one half: a quarter of the
    probability lies above one. -/
def quarterLaw : TailLaw Float := ⟨fun _ _ => 0.25, fun _ _ => 0.15915494309189535, fun _ _ => 1⟩

def halfSettings (width : Float) : Settings Float := ⟨0.5, 0.8, .arithmetic, some width⟩

theorem uncountable_two : Uncountable quarterLaw [1.0, 2.0] (halfSettings 1e-10) := by
  refine ⟨1, 1e-10, 1, 0.5, eq_ok_of_toOption (by decide +kernel), rfl, eq_ok_of_toOption (by decide +kernel),
    eq_ok_of_toOption (by decide +kernel), ?_⟩
  rintro ⟨count, hceil, hlimit, _⟩
  have hblocks : RootArith.ceilNat (0.5 * (1 / (1e-10 / Arith.count 2) * (1 / (1e-10 / Arith.count 2))) : Float) =
      some 200000000000000000000 := by decide +kernel
  obtain rfl := Option.some.inj (hblocks.symm.trans hceil)
  exact absurd hlimit (by decide)

/-- Two readings with an interval of one half in sight, two with one far too narrow, and two rates that cancel. -/
theorem analyze_coherent_widths :
    (∃ a, analyze quarterLaw [1.0, 2.0] (halfSettings 0.5) = .ok a ∧
      Coherent [1.0, 2.0] (halfSettings 0.5) a ∧ a.blockSize = some 1 ∧ a.required = some ⟨1, 8, 8⟩) ∧
    (∃ cause, analyze quarterLaw [1.0, 2.0] (halfSettings 1e-10) = .error (.invalid cause)) ∧
    ∃ cause, analyze StudentT.doubleLaw [1.0, -1.0] ⟨0.95, 0.8, .harmonic, none⟩ = .error (.invalid cause) := by
  refine ⟨?_, ?_, ?_⟩
  · have hparts : (analyze quarterLaw [1.0, 2.0] (halfSettings 0.5)).toOption.map
        (fun a => (a.blockSize, a.required)) = some (some 1, some ⟨1, 8, 8⟩) := by decide +kernel
    obtain ⟨a, ha, hparts⟩ := Option.map_eq_some_iff.mp hparts
    obtain ⟨hsize, hrequired⟩ := Prod.mk.inj hparts
    have hok := eq_ok_of_toOption ha
    exact ⟨a, hok, (analyze_coherent _ _ _).2.2 a hok, hsize, hrequired⟩
  · have h := analyze_coherent quarterLaw [1.0, 2.0] (halfSettings 1e-10)
    obtain ⟨e, he⟩ := h.1.mpr (.inr (.inr (.inr uncountable_two)))
    obtain ⟨cause, rfl⟩ := h.2.1 e he
    exact ⟨cause, he⟩
  · have h := analyze_coherent StudentT.doubleLaw [1.0, -1.0] ⟨0.95, 0.8, .harmonic, none⟩
    -- The sum of the reciprocals is zero, so there is no mean.
    have hmean : ¬ Arith.isFinite (MeanMethod.harmonic.reduce [(1.0 : Float), -1.0]) = true := by
      decide +kernel
    obtain ⟨e, he⟩ := h.1.mpr (.inr (.inr (.inl ⟨by decide, hmean⟩)))
    obtain ⟨cause, rfl⟩ := h.2.1 e he
    exact ⟨cause, he⟩

end Series
end BatchMeans
