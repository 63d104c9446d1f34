import BatchMeans.Analysis.Analyze
import BatchMeans.Proofs.Series.ZeroDivisor

/- No analysis of doubles comes from a division by zero, unless reciprocals cancel.

   The parts of an analysis are those of `Proofs/Series/ZeroDivisor.lean`, and
   the sample size. It looks at the mean of the series and at sizes that leave two
   blocks or more (`SizesUncancelled`). Half of the least double is zero, and a width that small is
   divided by; but no count can be read off the quotient, so the analysis is
   refused (`not_isZero_of_ofBound`). -/
namespace BatchMeans.Series
open Double

variable {div : Float → Float → Float} {law : TailLaw Float} {xs : List Float} {method : MeanMethod}
  {s : Settings Float} {q : ℕ} {t variance e width level limit centre : Float}

/-- A number of blocks is only found for a half width other than zero. -/
theorem not_isZero_of_ofBound {r : SampleSize}
    (h : SampleSize.ofBound width q (blockBound t variance e) = .ok r) : ¬ Arith.IsZero e := by
  intro hzero
  obtain ⟨count, ⟨hceil, _⟩, _⟩ := ofBound_eq_ok_iff.mp h
  have hquotient := isFinite_div_isZero t hzero
  have hbound := isFinite_mul_eq_false variance (isFinite_mul_eq_false (t / e) hquotient)
  have hnone := ceilNat_eq_none hbound
  have hsome : RootArith.ceilNat (variance * (t / e * (t / e))) = some count := hceil
  rw [hnone] at hsome
  cases hsome

theorem blockBound_withDivision (hdiv : AgreesOffZero div) (t variance : Float) (he : ¬ Arith.IsZero e) :
    @blockBound Float (withDivision div) t variance e = blockBound t variance e := by
  show variance * Arith.square (div t e) = _
  rw [hdiv t e he]
  rfl

/-- No reciprocals cancel that an analysis adds up: those of the series, and of its blocks at every size that
    leaves two of them. -/
structure SizesUncancelled (method : MeanMethod) (xs : List Float) : Prop where
  series : Uncancelled method xs
  block : ∀ q, 2 ≤ xs.length / q → BlocksUncancelled method xs q

theorem requiredSize?_withDivision (hdiv : AgreesOffZero div) (h : SizesUncancelled method xs) {r : Option SampleSize}
    (hr : requiredSize? law xs width method level limit = .ok r) :
    @requiredSize? Float (withDivision div) law xs width method level limit = .ok r := by
  unfold requiredSize? at hr ⊢
  rw [blockSize?_withDivision hdiv h.series h.block limit]
  refine bind_eq_ok_of_imp hr fun _ _ hr => bind_eq_ok_of_imp hr fun _ _ hr =>
    bind_eq_ok_of_imp hr fun found hfound hr => ?_
  cases found with
  | none => exact hr
  | some q =>
    dsimp only at hr ⊢
    rw [criticalValue_withDivision hdiv, mean_withDivision hdiv h.series]
    refine bind_eq_ok_of_imp hr fun t _ hr => bind_eq_ok_of_imp hr fun centre _ hr => ?_
    rw [blockVariance_withDivision hdiv (h.block q (two_le_div_of_blockSize? hfound).2)]
    refine bind_eq_ok_of_imp hr fun variance _ hr => ?_
    obtain ⟨size, hsize, _⟩ := bind_eq_ok_iff.mp hr
    have hhalf : div width (Arith.count 2) = width / Arith.count 2 :=
      hdiv _ _ (not_isZero_of_pos (count_pos (by decide)))
    show (SampleSize.ofBound width q (@blockBound Float (withDivision div) t variance
      (div width (Arith.count 2))) >>= fun size => .ok (some size)) = .ok r
    rw [hhalf, blockBound_withDivision hdiv t variance (not_isZero_of_ofBound hsize)]
    exact hr

theorem analyzeBlocks_withDivision (hdiv : AgreesOffZero div) (h : SizesUncancelled s.method xs)
    (hq : 2 ≤ xs.length / q) {b : BlockAnalysis Float} (hb : analyzeBlocks law xs s centre q = .ok b) :
    @analyzeBlocks Float (withDivision div) law xs s centre q = .ok b := by
  unfold analyzeBlocks at hb ⊢
  rw [confidenceInterval_withDivision hdiv (fun _ => h.series) (h.block q),
    blockVariance_withDivision hdiv (h.block q hq), blockAutocorrelation_withDivision hdiv (h.block q)]
  refine bind_eq_ok_of_imp hb fun interval _ hb => bind_eq_ok_of_imp hb fun variance _ hb => ?_
  cases hw : s.width with
  | none =>
    rw [hw] at hb
    exact hb
  | some width =>
    rw [hw] at hb
    obtain ⟨required, hrequired, hb⟩ := bind_eq_ok_iff.mp hb
    exact bind_eq_ok_iff.mpr ⟨required, requiredSize?_withDivision hdiv h hrequired, hb⟩

theorem analyze_withDivision (hdiv : AgreesOffZero div) (h : SizesUncancelled s.method xs) {a : Analysis Float}
    (ha : analyze law xs s = .ok a) : @analyze Float (withDivision div) law xs s = .ok a := by
  unfold analyze at ha ⊢
  rw [mean_withDivision hdiv h.series, blockSize?_withDivision hdiv h.series h.block]
  refine bind_eq_ok_of_imp ha fun _ _ ha => bind_eq_ok_of_imp ha fun centre _ ha => ?_
  split at ha
  · next hn =>
    rw [if_pos hn]
    exact ha
  · next hn =>
    rw [if_neg hn]
    refine bind_eq_ok_of_imp ha fun found hfound ha => ?_
    cases found with
    | none => exact ha
    | some q =>
      obtain ⟨b, hb, ha⟩ := bind_eq_ok_iff.mp ha
      exact bind_eq_ok_iff.mpr
        ⟨b, analyzeBlocks_withDivision hdiv h (two_le_div_of_blockSize? hfound).2 hb, ha⟩

/-- Each statistic of a series is the same with another division, refusals included, where the reciprocals that it
    adds up do not cancel, and so is an analysis that succeeds. -/
structure SameWith (div : Float → Float → Float) (xs : List Float) (method : MeanMethod) : Prop where
  mean : Uncancelled method xs → @mean Float (withDivision div).toArith xs method = mean xs method
  blockMeans : ∀ q, BlocksUncancelled method xs q →
    @blockMeans Float (withDivision div).toArith xs q method = blockMeans xs q method
  blockVariance : ∀ q centre, BlocksUncancelled method xs q →
    @blockVariance Float (withDivision div).toArith xs q centre method = blockVariance xs q centre method
  blockAutocorrelation : ∀ q centre, BlocksUncancelled method xs q →
    @blockAutocorrelation Float (withDivision div).toArith xs q centre method =
      blockAutocorrelation xs q centre method
  confidenceInterval : ∀ law q level anchor, (anchor = .sample → Uncancelled method xs) →
    BlocksUncancelled method xs q → @confidenceInterval Float (withDivision div) law xs q level method anchor =
      confidenceInterval law xs q level method anchor
  analyze : ∀ law (s : Settings Float) a, s.method = method → SizesUncancelled method xs →
    analyze law xs s = .ok a → @analyze Float (withDivision div) law xs s = .ok a

theorem sameWith_of_agreesOffZero (hdiv : AgreesOffZero div) (xs : List Float) (method : MeanMethod) :
    SameWith div xs method where
  mean := mean_withDivision hdiv
  blockMeans _ h := blockMeans_withDivision hdiv h
  blockVariance _ centre h := blockVariance_withDivision hdiv h centre
  blockAutocorrelation _ centre h := blockAutocorrelation_withDivision hdiv (fun _ => h) centre
  confidenceInterval law _ level _ hseries h :=
    confidenceInterval_withDivision hdiv hseries (fun _ => h) law level
  analyze := by
    rintro law s a rfl h ha
    exact analyze_withDivision hdiv h ha

/-- **Nothing comes from a division by zero, unless reciprocals cancel.** Readings of one sign have no
    reciprocals that cancel, in the series or in a block. Where the reciprocals that a statistic adds up do not
    cancel, it is the same with every division that differs only where the divisor is zero: the mean depends on
    the whole series, a statistic of blocks on the blocks of its size. Where those of the whole series
    cancel the mean is not the same with every such division, nor are the block means where those of a
    block do: they are quotients by zero. -/
theorem sameWith_unless_cancelled (h : Accepts xs method) :
    ((method = .harmonic → OneSign xs) →
      Uncancelled method xs ∧ ∀ q, 1 ≤ q → BlocksUncancelled method xs q) ∧
    (∀ div, AgreesOffZero div → SameWith div xs method) ∧
    (¬ Uncancelled method xs → ∃ div, AgreesOffZero div ∧
      @mean Float (withDivision div).toArith xs method ≠ mean xs method) ∧
    ∀ q, 1 ≤ q → q ≤ xs.length → ¬ BlocksUncancelled method xs q → ∃ div, AgreesOffZero div ∧
      @blockMeans Float (withDivision div).toArith xs q method ≠ blockMeans xs q method := by
  refine ⟨fun hsign => ⟨?_, fun q hq => ?_⟩, fun div hdiv => ?_, fun hcancelled => ?_, fun q hq hqn hcancelled => ?_⟩
  · exact uncancelled_of_oneSign h.nonempty h.finite hsign
  · exact blocksUncancelled_of_oneSign hq h.finite hsign
  · exact sameWith_of_agreesOffZero hdiv xs method
  · exact ⟨zeroedDivision, agreesOffZero_zeroedDivision, mean_zeroedDivision_ne h hcancelled⟩
  · exact ⟨zeroedDivision, agreesOffZero_zeroedDivision, blockMeans_zeroedDivision_ne h hq hqn hcancelled⟩

/-- Three rates of one sign, and three of which the first two cancel: the mean of these is the same with a division
    that gives zero for a divisor of zero, but their means over pairs are not. -/
theorem sameWith_unless_cancelled_rates :
    @mean Float (withDivision zeroedDivision).toArith [1.0, 2.0, 4.0] .harmonic =
      mean [1.0, 2.0, 4.0] .harmonic ∧
    @mean Float (withDivision zeroedDivision).toArith [1.0, -1.0, 4.0] .harmonic =
      mean [1.0, -1.0, 4.0] .harmonic ∧
    ∃ div, AgreesOffZero div ∧ @blockMeans Float (withDivision div).toArith [1.0, -1.0, 4.0] 2 .harmonic ≠
      blockMeans [1.0, -1.0, 4.0] 2 .harmonic := by
  have hrates : Accepts [1.0, 2.0, (4.0 : Float)] .harmonic :=
    ⟨by decide, by decide +kernel, fun _ => by decide +kernel⟩
  have hpair : Accepts [1.0, -1.0, (4.0 : Float)] .harmonic :=
    ⟨by decide, by decide +kernel, fun _ => by decide +kernel⟩
  obtain ⟨hsign, hsame, _, _⟩ := sameWith_unless_cancelled hrates
  obtain ⟨_, hsame', _, hchanged⟩ := sameWith_unless_cancelled hpair
  refine ⟨(hsame _ agreesOffZero_zeroedDivision).mean (hsign fun _ => .inl (by decide +kernel)).1,
    (hsame' _ agreesOffZero_zeroedDivision).mean fun _ => by decide +kernel,
    hchanged 2 (by decide) (by decide) fun hblocks => ?_⟩
  exact hblocks [1.0, -1.0] List.mem_cons_self rfl (by decide +kernel)

/-- Two rates that cancel have an infinite mean: it is two over a sum of zero. -/
theorem mean_cancelling : Arith.IsZero (Arith.sumBy MeanMethod.harmonic.term [1.0, (-1.0 : Float)]) ∧
    (mean [1.0, (-1.0 : Float)] .harmonic).toOption = some (1.0 / 0.0) := by
  decide +kernel

end BatchMeans.Series
