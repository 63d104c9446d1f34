import BatchMeans.Proofs.Arith.DoubleSigns
import BatchMeans.Proofs.Series.Cutting
import BatchMeans.Proofs.Series.LeastBlockSize

/- No statistic of doubles comes from a division by zero, unless reciprocals cancel.

   A statistic is computed once more with another division (`withDivision`),
   which agrees with that of the program except where the divisor is zero
   (`AgreesOffZero`). The result is the same, whatever the other division makes of
   zero, as long as the reciprocals that the statistic adds up do not cancel: those
   of the whole series for its mean (`Uncancelled`), those of each block for a
   statistic of the blocks (`BlocksUncancelled`). Where they do cancel, the mean and
   the block means depend on it (`reduce_zeroedDivision_ne`). The counts that are
   divided by are one or more, a variance is compared with zero before it
   divides, and the reciprocals of readings of one sign have a sum of that sign,
   also when some of them are infinite (`not_isZero_sum_reciprocals`). -/
namespace BatchMeans.Series
open Double

/-! ## Sums of reciprocals -/

/-- All readings are positive, or all are negative. -/
def OneSign (xs : List Float) : Prop := (∀ x ∈ xs, 0 < x) ∨ ∀ x ∈ xs, x < 0

section Sums
variable {β : Type} {f : β → Float}

theorem sumBy_nonneg (xs : List β) (h : ∀ x ∈ xs, 0 < f x) : 0 ≤ Arith.sumBy f xs := by
  apply Arith.sumBy_induction (motive := fun s => 0 ≤ s) xs isZero_zero.2
  intro s hs x hx
  exact (lt_iff.mp (add_pos hs (h x hx))).1

theorem sumBy_nonpos (xs : List β) (h : ∀ x ∈ xs, f x < 0) : Arith.sumBy f xs ≤ 0 := by
  apply Arith.sumBy_induction (motive := fun s => s ≤ 0) xs isZero_zero.1
  intro s hs x hx
  exact (lt_iff.mp (add_neg hs (h x hx))).1

/-- A sum of terms of one sign is not zero: it is not on the other side of its last term. -/
theorem not_isZero_sumBy {xs : List β} (hne : xs ≠ []) (h : (∀ x ∈ xs, 0 < f x) ∨ ∀ x ∈ xs, f x < 0) :
    ¬ Arith.IsZero (Arith.sumBy f xs) := by
  obtain ⟨ys, y, rfl⟩ : ∃ ys y, xs = ys ++ [y] :=
    ⟨xs.dropLast, xs.getLast hne, (List.dropLast_append_getLast hne).symm⟩
  rw [Arith.sumBy_concat]
  rcases h with hpos | hneg
  · have hs := sumBy_nonneg ys fun x hx => hpos x (List.mem_append_left _ hx)
    exact not_isZero_of_pos (add_pos hs (hpos y (by simp)))
  · have hs := sumBy_nonpos ys fun x hx => hneg x (List.mem_append_left _ hx)
    exact not_isZero_of_neg (add_neg hs (hneg y (by simp)))

end Sums

theorem not_isZero_sum_reciprocals {xs : List Float} (hne : xs ≠ []) (hfin : ∀ x ∈ xs, x.isFinite = true)
    (hsign : OneSign xs) : ¬ Arith.IsZero (Arith.sumBy MeanMethod.harmonic.term xs) := by
  apply not_isZero_sumBy hne
  rcases hsign with hpos | hneg
  · exact .inl fun x hx => one_div_pos (hfin x hx) (hpos x hx)
  · exact .inr fun x hx => one_div_neg (hfin x hx) (hneg x hx)

/-! ## Another division -/

/-- The arithmetic of the doubles with another division. -/
@[reducible] def withDivision (div : Float → Float → Float) : RootArith Float :=
  { instRootArithFloat with div := div }

/-- A division that differs from that of the doubles only where the divisor is zero. -/
def AgreesOffZero (div : Float → Float → Float) : Prop := ∀ x y, ¬ Arith.IsZero y → div x y = x / y

/-- The reciprocals of these readings do not cancel, if they are added up at all. -/
def Uncancelled (method : MeanMethod) (xs : List Float) : Prop :=
  method = .harmonic → ¬ Arith.IsZero (Arith.sumBy method.term xs)

/-- No block of `q` readings has reciprocals that cancel. -/
def BlocksUncancelled (method : MeanMethod) (xs : List Float) (q : ℕ) : Prop :=
  ∀ b ∈ blocks q xs, Uncancelled method b

theorem uncancelled_of_oneSign {xs : List Float} {method : MeanMethod} (hne : xs ≠ [])
    (hfin : ∀ x ∈ xs, x.isFinite = true) (hsign : method = .harmonic → OneSign xs) : Uncancelled method xs := by
  rintro rfl
  exact not_isZero_sum_reciprocals hne hfin (hsign rfl)

theorem OneSign.of_mem_blocks {xs b : List Float} {q : ℕ} (h : OneSign xs) (hb : b ∈ blocks q xs) : OneSign b := by
  rcases h with hpos | hneg
  · exact .inl fun x hx => hpos x (mem_of_mem_blocks hb hx)
  · exact .inr fun x hx => hneg x (mem_of_mem_blocks hb hx)

theorem blocksUncancelled_of_oneSign {xs : List Float} {method : MeanMethod} {q : ℕ} (hq : 1 ≤ q)
    (hfin : ∀ x ∈ xs, x.isFinite = true) (hsign : method = .harmonic → OneSign xs) :
    BlocksUncancelled method xs q := fun _ hb =>
  uncancelled_of_oneSign (ne_nil_of_mem_blocks hq hb) (fun x hx => hfin x (mem_of_mem_blocks hb hx))
    fun hm => (hsign hm).of_mem_blocks hb

section Division
variable {div : Float → Float → Float} {xs means : List Float} {method : MeanMethod} {q : ℕ}
  {centre limit level : Float}

theorem sumBy_congr {f g : Float → Float} {ys : List Float} (h : ∀ y ∈ ys, f y = g y) :
    Arith.sumBy f ys = Arith.sumBy g ys := by
  induction ys using List.reverseRecOn with
  | nil => rw [Arith.sumBy_nil, Arith.sumBy_nil]
  | append_singleton ys y ih =>
    have hys : Arith.sumBy f ys = Arith.sumBy g ys := ih fun z hz => h z (List.mem_append_left _ hz)
    rw [Arith.sumBy_concat, Arith.sumBy_concat, h y (by simp), hys]

/-- A reciprocal is only taken of a reading other than zero. -/
theorem sum_reciprocals_withDivision (hdiv : AgreesOffZero div) (hnz : ∀ x ∈ xs, ¬ Arith.IsZero x) :
    Arith.sumBy (fun x => div 1 x) xs = Arith.sumBy MeanMethod.harmonic.term xs :=
  sumBy_congr fun x hx => hdiv 1 x (hnz x hx)

theorem reduce_withDivision (hdiv : AgreesOffZero div) (hne : xs ≠ [])
    (hnz : method = .harmonic → ∀ x ∈ xs, ¬ Arith.IsZero x) (hsum : Uncancelled method xs) :
    @MeanMethod.reduce Float (withDivision div).toArith method xs = method.reduce xs := by
  cases method with
  | arithmetic => exact hdiv _ _ (not_isZero_of_pos (count_pos (List.length_pos_iff.mpr hne)))
  | harmonic =>
    show div (Arith.count xs.length) (Arith.sumBy (fun x => div 1 x) xs) = _
    rw [sum_reciprocals_withDivision hdiv (hnz rfl)]
    exact hdiv _ _ (hsum rfl)

/-- The checks do not divide, so they are those of the doubles. -/
theorem accepts_of_checks {u v : Unit} (hf : checkFinite xs = .ok u) (hm : checkMethod xs method = .ok v) :
    Accepts xs method := .of_checks hf hm

theorem mean_withDivision (hdiv : AgreesOffZero div) (h : Uncancelled method xs) :
    @mean Float (withDivision div).toArith xs method = mean xs method := by
  refine bind_congr_of_ok fun _ hf => bind_congr_of_ok fun _ hm => ?_
  have haccepts := accepts_of_checks hf hm
  exact congrArg Except.ok (reduce_withDivision hdiv haccepts.nonempty haccepts.nonzero h)

theorem reduceBlocks_withDivision (hdiv : AgreesOffZero div) (h : BlocksUncancelled method xs q)
    (haccepts : Accepts xs method) (hq : 1 ≤ q) :
    @reduceBlocks Float (withDivision div).toArith xs q method = reduceBlocks xs q method := by
  apply List.map_congr_left
  intro b hb
  exact reduce_withDivision hdiv (ne_nil_of_mem_blocks hq hb)
    (fun hm x hx => haccepts.nonzero hm x (mem_of_mem_blocks hb hx)) (h b hb)

theorem blockMeans_withDivision (hdiv : AgreesOffZero div) (h : BlocksUncancelled method xs q) :
    @blockMeans Float (withDivision div).toArith xs q method = blockMeans xs q method := by
  refine bind_congr_of_ok fun _ hf => bind_congr_of_ok fun _ hq => bind_congr_of_ok fun _ hm => ?_
  exact congrArg Except.ok
    (reduceBlocks_withDivision hdiv h (accepts_of_checks hf hm) (one_le_of_checkBlockSize hq))

theorem spread_withDivision (hdiv : AgreesOffZero div) (hlen : 2 ≤ means.length) :
    @spread Float (withDivision div).toArith means centre = spread means centre :=
  hdiv _ _ (not_isZero_of_pos (count_pos (by omega)))

theorem blockVariance_withDivision (hdiv : AgreesOffZero div) (h : BlocksUncancelled method xs q)
    (centre : Float) :
    @blockVariance Float (withDivision div).toArith xs q centre method = blockVariance xs q centre method := by
  unfold blockVariance
  rw [blockMeans_withDivision hdiv h]
  refine bind_congr_of_ok fun means _ => bind_congr_of_ok fun _ hlen => bind_congr_of_ok fun _ _ => ?_
  exact congrArg Except.ok (spread_withDivision hdiv (require_eq_ok_iff.mp hlen))

/-- The block means are not computed unless there are two of them. -/
theorem blockAutocorrelation_withDivision (hdiv : AgreesOffZero div)
    (h : 2 ≤ xs.length / q → BlocksUncancelled method xs q) (centre : Float) :
    @blockAutocorrelation Float (withDivision div).toArith xs q centre method =
      blockAutocorrelation xs q centre method := by
  refine bind_congr_of_ok fun _ hf => bind_congr_of_ok fun _ hq => bind_congr_of_ok fun _ hm =>
    bind_congr_of_ok fun _ _ => bind_congr_of_ok fun _ hblocks => ?_
  have hlen := require_eq_ok_iff.mp hblocks
  have hmeans := reduceBlocks_withDivision hdiv (h hlen) (accepts_of_checks hf hm) (one_le_of_checkBlockSize hq)
  have hcount : ¬ Arith.IsZero (Arith.count (xs.length / q - 1) : Float) :=
    not_isZero_of_pos (count_pos (by omega))
  dsimp only
  rw [hmeans]
  generalize reduceBlocks xs q method = means
  show (if Arith.IsZero (div (squareSum means centre) (Arith.count (xs.length / q - 1))) then _
    else Except.ok (div (div (crossSum (means.zip means.tail) centre) (Arith.count (xs.length / q - 1)))
      (div (squareSum means centre) (Arith.count (xs.length / q - 1))))) = _
  rw [hdiv _ _ hcount, hdiv _ _ hcount]
  split
  · rfl
  · -- The variance is compared with zero before it divides.
    next hvariance => exact congrArg Except.ok (hdiv _ _ hvariance)

theorem sizeQualifies_withDivision (hdiv : AgreesOffZero div)
    (h : ∀ q, 2 ≤ xs.length / q → BlocksUncancelled method xs q) (centre limit : Float) :
    @sizeQualifies Float (withDivision div).toArith xs centre method limit =
      sizeQualifies xs centre method limit := by
  funext q
  unfold sizeQualifies judgedCoefficient
  rw [blockAutocorrelation_withDivision hdiv (h q) centre]
  rfl

theorem blockSize?_withDivision (hdiv : AgreesOffZero div) (hseries : Uncancelled method xs)
    (h : ∀ q, 2 ≤ xs.length / q → BlocksUncancelled method xs q) (limit : Float) :
    @blockSize? Float (withDivision div).toArith xs method limit = blockSize? xs method limit := by
  unfold blockSize?
  rw [mean_withDivision hdiv hseries]
  refine bind_congr_of_ok fun _ _ => bind_congr_of_ok fun _ _ => bind_congr_of_ok fun centre _ => ?_
  rw [sizeQualifies_withDivision hdiv h centre limit]

/-! ## What a division by zero would change -/

/-- The division of the doubles, but with zero for every quotient by zero. -/
def zeroedDivision (x y : Float) : Float := if Arith.IsZero y then 0 else x / y

theorem agreesOffZero_zeroedDivision : AgreesOffZero zeroedDivision := fun _ _ hy => if_neg hy

/-- Where reciprocals cancel, the mean is a quotient by zero: it is not finite, and would be zero with the other
    division. -/
theorem reduce_zeroedDivision_ne (hnz : method = .harmonic → ∀ x ∈ xs, ¬ Arith.IsZero x)
    (h : ¬ Uncancelled method xs) :
    @MeanMethod.reduce Float (withDivision zeroedDivision).toArith method xs ≠ method.reduce xs := by
  obtain ⟨rfl, hzero⟩ := Classical.not_imp.mp h
  have hzero := not_not.mp hzero
  have hzeroed : @MeanMethod.reduce Float (withDivision zeroedDivision).toArith .harmonic xs = 0 := by
    show zeroedDivision (Arith.count xs.length) (Arith.sumBy (fun x => zeroedDivision 1 x) xs) = 0
    rw [sum_reciprocals_withDivision agreesOffZero_zeroedDivision (hnz rfl)]
    exact if_pos hzero
  have hfinite : (MeanMethod.harmonic.reduce xs).isFinite = false :=
    isFinite_div_isZero (Arith.count xs.length) hzero
  rw [hzeroed]
  intro hsame
  rw [← hsame, isFinite_zero] at hfinite
  cases hfinite

theorem accepts_withDivision (h : Accepts xs method) : @Accepts Float (withDivision div).toArith xs method :=
  @Accepts.mk Float (withDivision div).toArith xs method h.nonempty h.finite h.nonzero

theorem mean_zeroedDivision_ne (haccepts : Accepts xs method) (h : ¬ Uncancelled method xs) :
    @mean Float (withDivision zeroedDivision).toArith xs method ≠ mean xs method := by
  have hzeroed := @mean_eq_ok Float (withDivision zeroedDivision).toArith _ _ (accepts_withDivision haccepts)
  rw [hzeroed, mean_eq_ok haccepts]
  exact fun hsame => reduce_zeroedDivision_ne haccepts.nonzero h (Except.ok.inj hsame)

theorem blockMeans_zeroedDivision_ne (haccepts : Accepts xs method) (hq : 1 ≤ q) (hqn : q ≤ xs.length)
    (h : ¬ BlocksUncancelled method xs q) :
    @blockMeans Float (withDivision zeroedDivision).toArith xs q method ≠ blockMeans xs q method := by
  obtain ⟨b, hb⟩ := not_forall.mp h
  obtain ⟨hb, hcancelled⟩ := Classical.not_imp.mp hb
  have hzeroed := @blockMeans_eq_ok Float (withDivision zeroedDivision).toArith _ _ _
    (accepts_withDivision haccepts) hq hqn
  rw [hzeroed, blockMeans_eq_ok haccepts hq hqn]
  intro hsame
  have hblock := List.map_inj_left.mp (Except.ok.inj hsame) b hb
  exact reduce_zeroedDivision_ne (fun hm x hx => haccepts.nonzero hm x (mem_of_mem_blocks hb hx)) hcancelled hblock

/-! ## Critical values and intervals -/

variable {law : TailLaw Float}

/-- The unit of a negligible step. -/
theorem not_isZero_unit : ¬ Arith.IsZero (Arith.count 4503599627370496 : Float) :=
  not_isZero_of_pos (count_pos (by decide))

theorem isNegligible_withDivision (hdiv : AgreesOffZero div) (step t : Float) :
    @StudentT.isNegligible Float (withDivision div).toArith step t = StudentT.isNegligible step t := by
  have hunit : @Arith.ratio Float (withDivision div).toArith 1 4503599627370496 =
      Arith.ratio 1 4503599627370496 := hdiv _ _ not_isZero_unit
  unfold StudentT.isNegligible
  rw [hunit]
  rfl

theorem polish_withDivision (hdiv : AgreesOffZero div) (df : ℕ) (alpha : Float) : ∀ (steps : ℕ) (t : Float),
    @StudentT.polish Float (withDivision div).toArith law df alpha steps t =
      StudentT.polish law df alpha steps t
  | 0, _ => rfl
  | steps + 1, t => by
    show (if 0 < law.density df t ∧ Arith.IsPositive t then
      let step := div (alpha - law.upperTail df t) (law.density df t)
      if @StudentT.isNegligible Float (withDivision div).toArith step (t - step) then t - step
      else @StudentT.polish Float (withDivision div).toArith law df alpha steps (t - step)
      else t) = _
    rw [StudentT.polish]
    -- A step is only taken where the density is positive.
    split
    · next hguard =>
      dsimp only
      rw [hdiv _ _ (not_isZero_of_pos hguard.1), isNegligible_withDivision hdiv,
        polish_withDivision hdiv df alpha steps]
    · rfl

theorem criticalValue_withDivision (hdiv : AgreesOffZero div) (law : TailLaw Float) (df : ℕ) (level : Float) :
    @StudentT.criticalValue Float (withDivision div).toArith law df level =
      StudentT.criticalValue law df level := by
  have htail : @StudentT.tailOfLevel Float (withDivision div).toArith level = StudentT.tailOfLevel level :=
    hdiv _ _ (not_isZero_of_pos (count_pos (by decide)))
  refine bind_congr_of_ok fun _ _ => bind_congr_of_ok fun _ _ => ?_
  dsimp only
  rw [htail]
  exact congrArg Except.ok (polish_withDivision hdiv df _ 4 _)

theorem halfWidth_withDivision (hdiv : AgreesOffZero div) (t variance : Float) {h : ℕ} (hh : 1 ≤ h) :
    @halfWidth Float (withDivision div) t variance h = halfWidth t variance h := by
  show t * RootArith.sqrt (div variance (Arith.count h)) = _
  rw [hdiv _ _ (not_isZero_of_pos (count_pos hh))]
  rfl

/-- The mean of the series is only looked at where the interval is centred on it. -/
theorem confidenceInterval_withDivision {anchor : Anchor} (hdiv : AgreesOffZero div)
    (hseries : anchor = .sample → Uncancelled method xs)
    (h : 2 ≤ xs.length / q → BlocksUncancelled method xs q) (law : TailLaw Float) (level : Float) :
    @confidenceInterval Float (withDivision div) law xs q level method anchor =
      confidenceInterval law xs q level method anchor := by
  refine bind_congr_of_ok fun _ _ => bind_congr_of_ok fun _ hf => bind_congr_of_ok fun _ hq =>
    bind_congr_of_ok fun _ hm => bind_congr_of_ok fun _ hblocks => ?_
  have hlen := require_eq_ok_iff.mp hblocks
  have haccepts := accepts_of_checks hf hm
  have hmeans := reduceBlocks_withDivision hdiv (h hlen) haccepts (one_le_of_checkBlockSize hq)
  have hlength : (reduceBlocks xs q method).length = xs.length / q := length_reduceBlocks xs q method
  dsimp only
  rw [hmeans, criticalValue_withDivision hdiv]
  generalize reduceBlocks xs q method = means at hlength
  have hcentre : @MeanMethod.reduce Float (withDivision div).toArith .arithmetic means =
      MeanMethod.arithmetic.reduce means :=
    reduce_withDivision hdiv (List.length_pos_iff.mp (by omega)) (fun hm => nomatch hm) (fun hm => nomatch hm)
  rw [hcentre]
  refine bind_congr_of_ok fun t _ => ?_
  rw [spread_withDivision hdiv (by omega), halfWidth_withDivision hdiv _ _ (by omega)]
  cases anchor with
  | blockMeans => rfl
  | sample => rw [reduce_withDivision hdiv haccepts.nonempty haccepts.nonzero (hseries rfl)]

end Division

end BatchMeans.Series
