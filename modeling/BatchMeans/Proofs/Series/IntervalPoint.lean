import BatchMeans.Proofs.Arith.DoubleSpecial
import BatchMeans.Proofs.Series.Acceptance
import BatchMeans.StudentT.Double

/- Whether an interval holds its own point, in double precision.

   No check stands between the sums of an interval and its ends, so a sum that
   overflows or an infinite critical value reaches them. The half width is the
   critical value times the standard error of the mean (`standardError`), which is
   not negative unless it is undefined. `interval_holdsPoint_iff` says what is left: the
   half width is undefined when the standard error is, and when one of its two
   factors is infinite and the other zero, and an infinite half width leaves
   only a finite point within the interval. A level next to one has an
   infinite critical value, so readings without variance have an undefined
   half width there where zero is meant. -/
namespace BatchMeans.Series
open Double

variable {law : TailLaw Float} {xs : List Float} {q : ℕ} {level t c : Float} {method : MeanMethod}
  {anchor : Anchor} {i : Interval Float} {means : List Float}

/-! ## The standard error -/

/-- The mean of the means of the blocks of `q` readings. -/
def blockCentre (xs : List Float) (q : ℕ) (method : MeanMethod) : Float :=
  MeanMethod.arithmetic.reduce (reduceBlocks xs q method)

/-- The standard error of the mean of the block means. -/
def standardError (xs : List Float) (q : ℕ) (method : MeanMethod) : Float :=
  RootArith.sqrt (spread (reduceBlocks xs q method) (blockCentre xs q method) / Arith.count (xs.length / q))

theorem nonneg_spread (hlen : 2 ≤ means.length) (c : Float) : NonnegOrUndefined (spread means c) :=
  (nonneg_sumBy means fun v _ => nonneg_square (v - c)).div (count_pos (by omega))

theorem nonneg_standardError (hq : 2 ≤ xs.length / q) : NonnegOrUndefined (standardError xs q method) := by
  have hlen : 2 ≤ (reduceBlocks xs q method).length := hq.trans_eq (length_reduceBlocks xs q method).symm
  exact ((nonneg_spread hlen _).div (count_pos (by omega))).sqrt

/-- Every value equals the centre. -/
def AllAt (means : List Float) (c : Float) : Prop := ∀ m ∈ means, m ≤ c ∧ c ≤ m

instance instDecidableAllAt (means : List Float) (c : Float) : Decidable (AllAt means c) :=
  inferInstanceAs (Decidable (∀ m ∈ means, m ≤ c ∧ c ≤ m))

/-- The difference of two finite numbers of one value is zero. -/
theorem isZero_sub {m : Float} (hc : c.isFinite = true) (hm : m ≤ c ∧ c ≤ m) : Arith.IsZero (m - c) := by
  have fm : m.isFinite = true := isFinite_of_le hc hc hm.2 hm.1
  have hvalue : value m - value c = 0 :=
    sub_eq_zero.mpr (le_antisymm ((le_iff_value_le fm hc).mp hm.1) ((le_iff_value_le hc fm).mp hm.2))
  have hround := rounds_sub fm hc
  rw [hvalue] at hround
  exact isZero_of_rounds hround

theorem isZero_spread (hlen : 2 ≤ means.length) (hc : c.isFinite = true) (h : AllAt means c) :
    Arith.IsZero (spread means c) := by
  refine isZero_div (isZero_sumBy means fun m hm => ?_) (count_pos (by omega))
  exact isZero_mul (isZero_sub hc (h m hm)) (isZero_sub hc (h m hm))

theorem isZero_standardError (hq : 2 ≤ xs.length / q) (hc : (blockCentre xs q method).isFinite = true)
    (h : AllAt (reduceBlocks xs q method) (blockCentre xs q method)) :
    Arith.IsZero (standardError xs q method) := by
  have hlen : 2 ≤ (reduceBlocks xs q method).length := hq.trans_eq (length_reduceBlocks xs q method).symm
  exact isZero_sqrt (isZero_div (isZero_spread hlen hc h) (count_pos (by omega)))

/-- A finite standard error has a finite centre. -/
theorem isFinite_blockCentre (hq : 2 ≤ xs.length / q) (h : (standardError xs q method).isFinite = true) :
    (blockCentre xs q method).isFinite = true := by
  have hsum := isFinite_of_div (isFinite_of_div (isFinite_of_sqrt h))
  have hlen : 0 < (reduceBlocks xs q method).length := by
    rw [length_reduceBlocks]
    omega
  obtain ⟨m, hm⟩ := List.exists_mem_of_length_pos hlen
  have hsquare := isFinite_of_sumBy _ hsum m hm
  exact (isFinite_of_sub (isFinite_of_mul hsquare).1).2

/-! ## Critical values without a step -/

/-- A starting value that is not finite is the critical value. -/
theorem criticalValue_of_not_finite {df : ℕ} (hl : 0 < level ∧ level < 1) (hdf : 1 ≤ df)
    (h : ¬ (law.quantile df (1 - StudentT.tailOfLevel level)).isFinite = true) :
    StudentT.criticalValue law df level = .ok (law.quantile df (1 - StudentT.tailOfLevel level)) := by
  rw [criticalValue_eq_polish law hl hdf, polish_of_not_isPositive fun hpos => h hpos.2]

/-! ## The point of an interval -/

/-- The half width is a number and not negative, and the point lies between the ends. -/
structure HoldsPoint (i : Interval Float) : Prop where
  halfWidth : 0 ≤ i.halfWidth
  lower : i.lower ≤ i.point
  upper : i.point ≤ i.upper
  contains : i.contains i.point = true

theorem holdsPoint_iff : HoldsPoint i ↔
    0 ≤ i.halfWidth ∧ i.point ≤ i.point ∧ (i.point.isFinite = true ∨ i.halfWidth.isFinite = true) := by
  constructor
  · intro h
    exact ⟨h.halfWidth, (between_sub_add_iff h.halfWidth).mp ⟨h.lower, h.upper⟩⟩
  · intro ⟨hwidth, hpoint⟩
    obtain ⟨hlower, hupper⟩ := (between_sub_add_iff hwidth).mpr hpoint
    exact ⟨hwidth, hlower, hupper, decide_eq_true ⟨hlower, hupper⟩⟩

/-- Block means that equal their mean have a half width of zero exactly when that mean and the critical value
    are finite. -/
theorem isZero_halfWidth_iff (hq : 2 ≤ xs.length / q)
    (h : AllAt (reduceBlocks xs q method) (blockCentre xs q method)) :
    Arith.IsZero (t * standardError xs q method) ↔
      (blockCentre xs q method).isFinite = true ∧ t.isFinite = true := by
  constructor
  · intro hzero
    obtain ⟨ft, fe⟩ := isFinite_of_mul (isFinite_of_isZero hzero)
    exact ⟨isFinite_blockCentre hq fe, ft⟩
  · intro ⟨hc, ft⟩
    exact isZero_finite_mul ft (isZero_standardError hq hc h)

/-- **An interval holds its own point, unless a factor of its half width overflows.** This is said for a critical
    value that is not negative, as that of a quantile that is not negative. The half width is then a number, and the
    point lies within the interval, exactly when the standard error is a number, neither of the two is infinite while
    the other is zero, and the point is a number that is finite or has a finite half width. A negative or undefined
    critical value is left out: nothing is said about the interval that it gives. Block means that equal their mean have
    a half width of zero exactly when that mean and the critical value are finite; and the critical value is
    not finite where the starting quantile is not. -/
theorem interval_holdsPoint_iff (h : confidenceInterval law xs q level method anchor = .ok i)
    (ht : StudentT.criticalValue law (xs.length / q - 1) level = .ok t) (h0 : 0 ≤ t) :
    (HoldsPoint i ↔ (0 ≤ standardError xs q method ∧
        ¬ (¬ t.isFinite = true ∧ Arith.IsZero (standardError xs q method)) ∧
        ¬ (Arith.IsZero t ∧ ¬ (standardError xs q method).isFinite = true)) ∧
      i.point ≤ i.point ∧ (i.point.isFinite = true ∨ i.halfWidth.isFinite = true)) ∧
    (AllAt (reduceBlocks xs q method) (blockCentre xs q method) →
      (Arith.IsZero i.halfWidth ↔ (blockCentre xs q method).isFinite = true ∧ t.isFinite = true)) ∧
    (¬ (law.quantile (xs.length / q - 1) (1 - StudentT.tailOfLevel level)).isFinite = true →
      ¬ t.isFinite = true) := by
  obtain ⟨hl, _, hq, t', ht', hi⟩ := confidenceInterval_eq_ok_iff.mp h
  obtain rfl := Except.ok.inj (ht.symm.trans ht')
  have hwidth : i.halfWidth = t * standardError xs q method := by rw [← hi]; rfl
  refine ⟨?_, fun hall => ?_, fun hquantile => ?_⟩
  · rw [holdsPoint_iff, hwidth, nonneg_mul_iff h0 (nonneg_standardError hq)]
  · rw [hwidth]
    exact isZero_halfWidth_iff hq hall
  · have hstart := criticalValue_of_not_finite hl (by omega) hquantile
    obtain rfl := Except.ok.inj (ht.symm.trans hstart)
    exact hquantile

/-- The largest level below one leaves no probability above the critical value, which is infinite. -/
theorem criticalValue_near_one :
    StudentT.criticalValue StudentT.doubleLaw 2 0.9999999999999999 = .ok (1.0 / 0.0) := by
  have hquantile : StudentT.doubleLaw.quantile 2 (1 - StudentT.tailOfLevel 0.9999999999999999) = 1.0 / 0.0 := by
    simp only [StudentT.doubleLaw, StudentT.quantile]
    exact if_pos (by decide +kernel)
  have hinf : ¬ (1.0 / 0.0 : Float).isFinite = true := by decide +kernel
  rw [← hquantile] at hinf ⊢
  exact criticalValue_of_not_finite (by decide +kernel) (by decide) hinf

/-- Three readings at that level. -/
theorem confidenceInterval_near_one {x y z : Float} (h : ∀ r ∈ [x, y, z], r.isFinite = true) :
    confidenceInterval StudentT.doubleLaw [x, y, z] 1 0.9999999999999999 .arithmetic .blockMeans =
      .ok ⟨blockCentre [x, y, z] 1 .arithmetic, 1.0 / 0.0 * standardError [x, y, z] 1 .arithmetic,
        0.9999999999999999⟩ := by
  have haccepts : Accepts [x, y, z] .arithmetic := ⟨by simp, h, fun hmethod => (nomatch hmethod)⟩
  have hlevel : 0 < (0.9999999999999999 : Float) ∧ (0.9999999999999999 : Float) < 1 := by decide +kernel
  have hblocks : 2 ≤ [x, y, z].length / 1 := by simp
  have hfreedom : [x, y, z].length / 1 - 1 = 2 := by simp
  exact confidenceInterval_eq_ok haccepts hlevel hblocks (hfreedom ▸ criticalValue_near_one) .blockMeans

/-- Readings that vary have an interval from one infinity to the other there, which holds its point. -/
theorem interval_holdsPoint_near_one : ∃ i, confidenceInterval StudentT.doubleLaw [1, 2, 3] 1
    0.9999999999999999 .arithmetic .blockMeans = .ok i ∧ HoldsPoint i := by
  have hi := confidenceInterval_near_one (x := 1) (y := 2) (z := 3) (by decide +kernel)
  have hiff := (interval_holdsPoint_iff hi criticalValue_near_one (by decide +kernel)).1
  refine ⟨_, hi, hiff.mpr ⟨⟨?_, ?_, ?_⟩, ?_, .inl ?_⟩⟩ <;> decide +kernel

/-- Readings without variance have an undefined half width there, and an interval without its point. -/
theorem interval_undefined_near_one : ∃ i, confidenceInterval StudentT.doubleLaw [3, 3, 3] 1
    0.9999999999999999 .arithmetic .blockMeans = .ok i ∧
    AllAt (reduceBlocks [3, 3, 3] 1 .arithmetic) i.point ∧
    ¬ Arith.IsZero i.halfWidth ∧ i.halfWidth.isNaN = true ∧
    ¬ i.lower ≤ i.point ∧ ¬ i.point ≤ i.upper ∧ i.contains i.point = false := by
  have hi := confidenceInterval_near_one (x := 3) (y := 3) (z := 3) (by decide +kernel)
  refine ⟨_, hi, ?_, ?_, ?_, ?_, ?_, ?_⟩ <;> decide +kernel

end BatchMeans.Series
