import BatchMeans.Proofs.Arith.DoubleSigns
import BatchMeans.Proofs.Traps.Steps
import BatchMeans.StudentT.Double

/- Critical values meet no trap.

   A distribution is asked only with a degree of freedom, and for a quantile only
   at a probability between one half and one; what it then answers is left open.
   For a level strictly between zero and one, one less half of what is left of the
   level is such a probability, also after each operation has been rounded
   (`half_le_one_sub_tail`). The tail series begins at an index that is a difference of
   counts, and counts its terms. -/
namespace BatchMeans
open StudentT

namespace StudentT

/-- The distribution that takes the tail series for up to 100000 degrees of freedom, and
    everything else from a given one. -/
def seriesLaw (law : TailLaw Float) : TailLaw Float where
  upperTail df t :=
    if 100000 < df then law.upperTail df t
    else if df = 1 then Elementary.arctanReciprocal t / Elementary.pi
    else seriesTail df t
  density := law.density
  quantile := law.quantile

theorem doubleLaw_eq : doubleLaw = seriesLaw ⟨betaTail, density, quantile⟩ := rfl

/-! ## The probability below the critical value -/

theorem value_half : (Arith.ratio 1 2 : Float).isFinite = true ∧
    Double.value (Arith.ratio 1 2) = 1 / 2 := by decide +kernel

/-- A quantile is asked for between one half and one. -/
theorem half_le_one_sub_tail {level : Float} (h0 : 0 < level) (h1 : level < 1) :
    Arith.ratio 1 2 ≤ 1 - tailOfLevel level ∧ 1 - tailOfLevel level ≤ 1 := by
  have fone := Double.isFinite_one
  have flevel : level.isFinite = true :=
    Double.isFinite_of_le Double.isFinite_zero fone (Double.lt_iff.mp h0).1 (Double.lt_iff.mp h1).1
  have hpos := Double.value_pos flevel h0
  have hlt := (Double.lt_iff_value_lt flevel fone).mp h1
  obtain ⟨ftwo, vtwo⟩ : (Arith.count 2 : Float).isFinite = true ∧
      Double.value (Arith.count 2) = (2 : ℕ) := Double.value_ofNat (by decide)
  obtain ⟨fhalf, vhalf⟩ := value_half
  rw [Double.value_one] at hlt
  -- What is left of the level, half of it, and one less that half, each rounded.
  obtain ⟨frest, hrest⟩ := Double.between_of_rounds (Double.rounds_sub fone flevel)
    Double.isFinite_zero fone (by rw [Double.value_zero, Double.value_one]; linarith)
    (by rw [Double.value_one]; linarith)
  rw [Double.value_zero, Double.value_one] at hrest
  obtain ⟨ftail, htail⟩ := Double.between_of_rounds (x := tailOfLevel level)
    (Double.rounds_div frest ftwo (by rw [vtwo]; norm_num)) Double.isFinite_zero fhalf
    (by rw [Double.value_zero, vtwo]; exact div_nonneg hrest.1 (by norm_num))
    (by rw [vtwo, vhalf]; push_cast; linarith)
  rw [Double.value_zero, vhalf] at htail
  have hround := Double.rounds_sub fone ftail
  rw [Double.value_one] at hround
  constructor
  · exact Double.le_of_rounds hround fhalf (by rw [vhalf]; linarith)
  · exact Double.ge_of_rounds hround fone (by rw [Double.value_one]; linarith)

end StudentT

/-! ## Guarded runs -/

namespace Guarded
variable {ε : Type} (law : TailLaw Float)

def density (df : Nat) (t : Float) : Guarded ε Float :=
  taking (1 ≤ df) .offDomain (law.density df t)

def farTail (df : Nat) (t : Float) : Guarded ε Float :=
  taking (1 ≤ df) .offDomain (law.upperTail df t)

def quantile (df : Nat) (p : Float) : Guarded ε Float :=
  taking (1 ≤ df ∧ Arith.ratio 1 2 ≤ p ∧ p ≤ 1) .offDomain (law.quantile df p)

def firstIndex (df : Nat) : Guarded ε Nat :=
  if df % 2 = 0 then quotient df 2
  else do
    let rest ← difference df 1
    quotient rest 2

/-- The terms are counted as they are added. -/
def addTerms (even : Bool) (x : Float) :
    Nat → Nat → Float → Float → Guarded ε (TailSeries.PartialSum Float)
  | 0, k, term, sum => .ok ⟨k, term, sum⟩
  | fuel + 1, k, term, sum =>
    if TailSeries.counts term sum then do
      let later ← successor (SampleSize.countLimit - 1) k
      addTerms even x fuel later (TailSeries.nextTerm even x k term) (sum + term)
    else .ok ⟨k, term, sum⟩

def seriesTail (df : Nat) (t : Float) : Guarded ε Float := do
  let n := Float.ofNat df
  let s := n + t * t
  let x := n / s
  let sine := t / s.sqrt
  let first ← firstIndex df
  let total ← addTerms (df % 2 == 0) x TailSeries.fuel first
    (TailSeries.advance (df % 2 == 0) x first 0 1) 0
  return if df % 2 = 0 then 0.5 * sine * total.sum
    else sine * x.sqrt * total.sum / Elementary.pi

def upperTail (df : Nat) (t : Float) : Guarded ε Float :=
  if 100000 < df then farTail law df t
  else if df = 1 then .ok (Elementary.arctanReciprocal t / Elementary.pi)
  else seriesTail df t

def polish (df : Nat) (alpha : Float) : Nat → Float → Guarded ε Float
  | 0, t => .ok t
  | steps + 1, t => do
    let density ← density law df t
    if 0 < density ∧ Arith.IsPositive t then do
      let tail ← upperTail law df t
      let step := (alpha - tail) / density
      let next := t - step
      if isNegligible step next then .ok next else polish df alpha steps next
    else .ok t

def criticalValue (df : Nat) (level : Float) : Guarded (Fault Float) Float := do
  plain (checkLevel level)
  plain (require (1 ≤ df) .noFreedom)
  let alpha := tailOfLevel level
  let start ← quantile law df (1 - alpha)
  polish law df alpha 4 start

end Guarded

namespace Computes
variable {ε : Type} (law : TailLaw Float) {df : Nat}

theorem firstIndex_eq (h : 1 ≤ df) :
    (Guarded.firstIndex df : Guarded ε Nat) = .ok (TailSeries.firstIndex df) := by
  unfold Guarded.firstIndex TailSeries.firstIndex
  by_cases heven : df % 2 = 0
  · rw [if_pos heven, if_pos heven, Guarded.quotient_eq df Nat.two_pos]
  · rw [if_neg heven, if_neg heven, Guarded.difference_eq h, ok_bind, Guarded.quotient_eq _ Nat.two_pos]

/-- The index stays countable for as many terms as there may be. -/
theorem addTerms_eq (even : Bool) (x : Float) (fuel k : Nat) (term sum : Float)
    (h : k + fuel < SampleSize.countLimit) :
    (Guarded.addTerms even x fuel k term sum : Guarded ε _) =
      .ok (TailSeries.addTerms even x fuel k term sum) := by
  induction fuel generalizing k term sum with
  | zero => rfl
  | succ fuel ih =>
    rw [Guarded.addTerms, TailSeries.addTerms]
    by_cases hcounts : TailSeries.counts term sum = true
    · have hk : k + 1 ≤ SampleSize.countLimit - 1 := by omega
      rw [if_pos hcounts, if_pos hcounts, Guarded.successor_eq hk, ok_bind]
      exact ih (k + 1) _ _ (by omega)
    · rw [if_neg hcounts, if_neg hcounts]

theorem firstIndex_le (df : Nat) : TailSeries.firstIndex df ≤ df := by
  unfold TailSeries.firstIndex
  split <;> omega

theorem seriesTail_eq (t : Float) (h : 1 ≤ df) (hle : df ≤ 100000) :
    (Guarded.seriesTail df t : Guarded ε Float) = .ok (StudentT.seriesTail df t) := by
  have hfirst := firstIndex_le df
  have hfuel : TailSeries.firstIndex df + TailSeries.fuel < SampleSize.countLimit := by
    unfold TailSeries.fuel SampleSize.countLimit
    omega
  unfold Guarded.seriesTail
  rw [firstIndex_eq h]
  simp only [ok_bind]
  rw [addTerms_eq _ _ _ _ _ _ hfuel, ok_bind]
  rfl

theorem upperTail_eq (t : Float) (h : 1 ≤ df) :
    (Guarded.upperTail law df t : Guarded ε Float) = .ok ((seriesLaw law).upperTail df t) := by
  show _ = Except.ok (if 100000 < df then law.upperTail df t
    else if df = 1 then _ else StudentT.seriesTail df t)
  unfold Guarded.upperTail
  by_cases hfar : 100000 < df
  · rw [if_pos hfar, if_pos hfar]
    exact Guarded.taking_eq _ _ h
  rw [if_neg hfar, if_neg hfar]
  by_cases hone : df = 1
  · rw [if_pos hone, if_pos hone]
  · rw [if_neg hone, if_neg hone, seriesTail_eq t h (Nat.le_of_not_lt hfar)]

theorem polish_eq (alpha : Float) (h : 1 ≤ df) (steps : Nat) (t : Float) :
    (Guarded.polish law df alpha steps t : Guarded ε Float) =
      .ok (StudentT.polish (seriesLaw law) df alpha steps t) := by
  induction steps generalizing t with
  | zero => rfl
  | succ steps ih =>
    have hdensity : (Guarded.density law df t : Guarded ε Float) = .ok ((seriesLaw law).density df t) :=
      Guarded.taking_eq _ _ h
    rw [Guarded.polish, StudentT.polish, hdensity, ok_bind]
    by_cases hpos : 0 < (seriesLaw law).density df t ∧ Arith.IsPositive t
    · rw [if_pos hpos, if_pos hpos, upperTail_eq law t h, ok_bind]
      by_cases hstop : isNegligible ((alpha - (seriesLaw law).upperTail df t) /
          (seriesLaw law).density df t) (t - (alpha - (seriesLaw law).upperTail df t) /
          (seriesLaw law).density df t) = true
      · rw [if_pos hstop, if_pos hstop]
      · rw [if_neg hstop, if_neg hstop]
        exact ih _
    · rw [if_neg hpos, if_neg hpos]

theorem criticalValue (df : Nat) (level : Float) :
    Computes (Guarded.criticalValue law df level)
      (StudentT.criticalValue (seriesLaw law) df level) := by
  refine .check fun _ hlevel => ?_
  refine .check fun _ hdf => ?_
  obtain ⟨h0, h1⟩ := require_eq_ok_iff.mp hlevel
  have hone := require_eq_ok_iff.mp hdf
  refine .step (Guarded.taking_eq _ _ ⟨hone, half_le_one_sub_tail h0 h1⟩) ?_
  exact polish_eq law _ hone 4 _

end Computes
end BatchMeans
