import Mathlib.Algebra.Order.Field.GeomSum
import Mathlib.Algebra.Order.BigOperators.Group.Finset
import Mathlib.Data.Nat.Factorial.DoubleFactorial
import BatchMeans.Proofs.Arith.Exact
import BatchMeans.StudentT.TailSeries

/- What the tail series adds up, and what it leaves out.

   The loop adds terms while they count, with no bound of its own on their number (`Ends`). In exact numbers the
   quotients of its running product are those of double factorials, so what it adds are the terms of
   the series (`Summed`). They fall, so after `2 ^ 54` of them their sum is so many times the next one,
   which then no longer counts: the loop ends, however near `x` is to one, before the steps run out that it is
   given (`ends_addTerms`). From the term at which it ends on, the coefficients still fall, so
   what is left out is at most a geometric series that begins with a term that does not count
   (`sum_seriesTerm_le`). -/
namespace BatchMeans.StudentT.TailSeries
open scoped Nat

/-! ## The loop -/

section Loop
variable {α : Type} [Arith α] {even : Bool} {x : α} {p r : PartialSum α}

/-- One more term added. -/
def PartialSum.next (even : Bool) (x : α) (p : PartialSum α) : PartialSum α :=
  ⟨p.index + 1, nextTerm even x p.index p.term, p.sum + p.term⟩

/-- Adding terms while they count, however many there are, leads from one partial sum to another. -/
inductive Ends (even : Bool) (x : α) : PartialSum α → PartialSum α → Prop where
  | stop {p : PartialSum α} : ¬ counts p.term p.sum = true → Ends even x p p
  | add {p r : PartialSum α} : counts p.term p.sum = true → Ends even x (p.next even x) r → Ends even x p r

theorem Ends.not_counts (h : Ends even x p r) : ¬ counts r.term r.sum = true := by
  induction h with
  | stop hstop => exact hstop
  | add _ _ ih => exact ih

end Loop

variable {K : Type} [Field K] [LinearOrder K] [IsStrictOrderedRing K] {even : Bool} {x t : K} {df first : ℕ}
  {p r : PartialSum K}

/-- A term counts when it exceeds the sum over `2 ^ 54`. -/
theorem counts_iff {term sum : K} : counts term sum = true ↔ sum / 2 ^ 54 < term := by
  have hunit : sum * Arith.ratio 1 4503599627370496 * Arith.ratio 1 4 = sum / 2 ^ 54 := by
    simp only [Arith.ratio]
    push_cast
    ring
  rw [← hunit]
  exact decide_eq_true_iff

/-! ## Coefficients -/

/-- The coefficients of the two series. -/
def coefficient (even : Bool) (k : ℕ) : K :=
  if even then ((2 * k - 1)‼ : K) / (2 * k)‼ else ((2 * k)‼ : K) / (2 * k + 1)‼

theorem coefficientRatio_eq (even : Bool) (k : ℕ) : coefficientRatio even (Arith.count k : K) =
    if even then (2 * k + 1 : K) / (2 * k + 2) else (2 * k + 2 : K) / (2 * k + 3) := by
  simp [coefficientRatio]

theorem coefficient_zero (even : Bool) : (coefficient even 0 : K) = 1 := by
  cases even <;> simp [coefficient]

theorem coefficient_succ (even : Bool) (k : ℕ) :
    (coefficient even (k + 1) : K) = coefficient even k * coefficientRatio even (Arith.count k) := by
  have heven : (2 * (k + 1))‼ = (2 * k + 2) * (2 * k)‼ := Nat.doubleFactorial_add_two (2 * k)
  rw [coefficientRatio_eq]
  cases even with
  | true =>
    have hodd : (2 * (k + 1) - 1)‼ = (2 * k + 1) * (2 * k - 1)‼ := Nat.doubleFactorial_add_one (2 * k)
    simp only [coefficient, heven, hodd, if_true]
    push_cast
    rw [div_mul_div_comm, mul_comm, mul_comm (2 * (k : K) + 2)]
  | false =>
    have hodd : (2 * (k + 1) + 1)‼ = (2 * k + 3) * (2 * k + 1)‼ := Nat.doubleFactorial_add_two (2 * k + 1)
    simp only [coefficient, heven, hodd, Bool.false_eq_true, if_false]
    push_cast
    rw [div_mul_div_comm, mul_comm, mul_comm (2 * (k : K) + 3)]

theorem coefficientRatio_le_one (even : Bool) (k : ℕ) : coefficientRatio even (Arith.count k : K) ≤ 1 := by
  rw [coefficientRatio_eq]
  split
  · exact (div_le_one (by positivity)).mpr (by linarith)
  · exact (div_le_one (by positivity)).mpr (by linarith)

theorem coefficient_nonneg (even : Bool) (k : ℕ) : 0 ≤ (coefficient even k : K) := by
  unfold coefficient
  split <;> positivity

/-- The coefficients fall. -/
theorem coefficient_antitone (even : Bool) : Antitone (coefficient even : ℕ → K) := by
  refine antitone_nat_of_succ_le fun k => ?_
  rw [coefficient_succ]
  exact mul_le_of_le_one_right (coefficient_nonneg even k) (coefficientRatio_le_one even k)

/-! ## Terms -/

def seriesTerm (even : Bool) (x : K) (k : ℕ) : K := coefficient even k * x ^ k

theorem nextTerm_seriesTerm (even : Bool) (x : K) (k : ℕ) :
    nextTerm even x k (seriesTerm even x k) = seriesTerm even x (k + 1) := by
  show seriesTerm even x k * (x * coefficientRatio even (Arith.count k)) = _
  rw [seriesTerm, seriesTerm, coefficient_succ, pow_succ]
  ring

theorem advance_seriesTerm (even : Bool) (x : K) (count k : ℕ) :
    advance even x count k (seriesTerm even x k) = seriesTerm even x (k + count) := by
  induction count generalizing k with
  | zero => rfl
  | succ count ih => rw [advance, nextTerm_seriesTerm, ih, Nat.add_right_comm, Nat.add_assoc]

theorem firstTerm_eq (df : ℕ) (x : K) : firstTerm df x = seriesTerm (df % 2 == 0) x (firstIndex df) := by
  have hone : seriesTerm (df % 2 == 0) x 0 = 1 := by
    rw [seriesTerm, coefficient_zero, pow_zero, mul_one]
  have h := advance_seriesTerm (df % 2 == 0) x (firstIndex df) 0
  rwa [hone, Nat.zero_add] at h

theorem seriesTerm_nonneg (hx : 0 ≤ x) (even : Bool) (k : ℕ) : 0 ≤ seriesTerm even x k :=
  mul_nonneg (coefficient_nonneg even k) (pow_nonneg hx k)

theorem seriesTerm_antitone (hx0 : 0 ≤ x) (hx1 : x ≤ 1) (even : Bool) : Antitone (seriesTerm even x) := by
  intro k m hkm
  exact mul_le_mul (coefficient_antitone even hkm) (pow_le_pow_of_le_one hx0 hx1 hkm) (pow_nonneg hx0 m)
    (coefficient_nonneg even k)

/-- Terms from some index on add up to no more than a geometric series does that begins with the same term. -/
theorem sum_seriesTerm_le (hx0 : 0 ≤ x) (hx1 : x < 1) (even : Bool) (m n : ℕ) :
    ∑ k ∈ Finset.Icc m n, seriesTerm even x k ≤ seriesTerm even x m / (1 - x) := by
  have hgeom : ∑ k ∈ Finset.Icc m n, x ^ k ≤ x ^ m / (1 - x) := by
    rw [← Finset.Ico_add_one_right_eq_Icc]
    exact geom_sum_Ico_le_of_lt_one hx0 hx1
  calc ∑ k ∈ Finset.Icc m n, seriesTerm even x k
      ≤ ∑ k ∈ Finset.Icc m n, coefficient even m * x ^ k := by
        refine Finset.sum_le_sum fun k hk => ?_
        exact mul_le_mul_of_nonneg_right (coefficient_antitone even (Finset.mem_Icc.mp hk).1) (pow_nonneg hx0 k)
    _ = coefficient even m * ∑ k ∈ Finset.Icc m n, x ^ k := (Finset.mul_sum _ _ _).symm
    _ ≤ coefficient even m * (x ^ m / (1 - x)) := mul_le_mul_of_nonneg_left hgeom (coefficient_nonneg even m)
    _ = seriesTerm even x m / (1 - x) := (mul_div_assoc _ _ _).symm

/-! ## What the loop adds up -/

/-- A partial sum of the terms from `first` on, with the next term at hand. -/
structure Summed (even : Bool) (x : K) (first : ℕ) (p : PartialSum K) : Prop where
  first_le : first ≤ p.index
  term : p.term = seriesTerm even x p.index
  sum : p.sum = ∑ k ∈ Finset.Ico first p.index, seriesTerm even x k

theorem summed_start (df : ℕ) (x : K) :
    Summed (df % 2 == 0) x (firstIndex df) ⟨firstIndex df, firstTerm df x, 0⟩ := by
  refine ⟨le_rfl, firstTerm_eq df x, ?_⟩
  rw [Finset.Ico_self, Finset.sum_empty]

theorem Summed.next (h : Summed even x first p) : Summed even x first (p.next even x) := by
  refine ⟨h.first_le.trans (Nat.le_succ _), ?_, ?_⟩
  · show nextTerm even x p.index p.term = _
    rw [h.term]
    exact nextTerm_seriesTerm even x p.index
  · show p.sum + p.term = ∑ k ∈ Finset.Ico first (p.index + 1), seriesTerm even x k
    rw [Finset.sum_Ico_succ_top h.first_le, h.sum, h.term]

theorem Ends.summed (h : Ends even x p r) (hp : Summed even x first p) : Summed even x first r := by
  induction h with
  | stop _ => exact hp
  | add _ _ ih => exact ih hp.next

/-! ## Why it ends -/

/-- The terms fall, so the sum is at least as many times the next one as it has terms. -/
theorem Summed.mul_term_le (h : Summed even x first p) (hx0 : 0 ≤ x) (hx1 : x ≤ 1) :
    (p.index - first : ℕ) * p.term ≤ p.sum := by
  have hcard := Finset.card_nsmul_le_sum (Finset.Ico first p.index) (seriesTerm even x) p.term fun k hk => by
    rw [h.term]
    exact seriesTerm_antitone hx0 hx1 even (Finset.mem_Ico.mp hk).2.le
  rwa [Nat.card_Ico, nsmul_eq_mul, ← h.sum] at hcard

/-- So a term that counts has fewer than `2 ^ 54` before it. -/
theorem Summed.index_lt (h : Summed even x first p) (hx0 : 0 ≤ x) (hx1 : x ≤ 1)
    (hcounts : counts p.term p.sum = true) : p.index < first + 2 ^ 54 := by
  rw [counts_iff, div_lt_iff₀ (by positivity), mul_comm] at hcounts
  have hterm : 0 ≤ p.term := h.term ▸ seriesTerm_nonneg hx0 even p.index
  have hlt := lt_of_mul_lt_mul_right ((h.mul_term_le hx0 hx1).trans_lt hcounts) hterm
  have hcount : p.index - first < 2 ^ 54 := by exact_mod_cast hlt
  omega

theorem Ends.index_le (h : Ends even x p r) (hp : Summed even x first p) (hx0 : 0 ≤ x) (hx1 : x ≤ 1)
    (hle : p.index ≤ first + 2 ^ 54) : r.index ≤ first + 2 ^ 54 := by
  induction h with
  | stop _ => exact hle
  | add hcounts _ ih => exact ih hp.next (hp.index_lt hx0 hx1 hcounts)

/-- With `2 ^ 54` steps at hand the loop does not run out of them. -/
theorem ends_addTerms (hx0 : 0 ≤ x) (hx1 : x ≤ 1) (fuel : ℕ) (hp : Summed even x first p)
    (hfuel : first + 2 ^ 54 ≤ p.index + fuel) :
    Ends even x p (addTerms even x fuel p.index p.term p.sum) := by
  induction fuel generalizing p with
  | zero =>
    -- Out of steps: the index is past all terms that can count.
    exact .stop fun hcounts => (hp.index_lt hx0 hx1 hcounts).not_ge hfuel
  | succ fuel ih =>
    rw [addTerms]
    by_cases hcounts : counts p.term p.sum = true
    · rw [if_pos hcounts]
      refine .add hcounts (ih hp.next ?_)
      show first + 2 ^ 54 ≤ p.index + 1 + fuel
      omega
    · rw [if_neg hcounts]
      exact .stop hcounts

theorem ends_tailSum (hx0 : 0 ≤ x) (hx1 : x ≤ 1) (df : ℕ) :
    Ends (df % 2 == 0) x ⟨firstIndex df, firstTerm df x, 0⟩ (tailSum df x) := by
  refine ends_addTerms hx0 hx1 fuel (summed_start df x) ?_
  show firstIndex df + 2 ^ 54 ≤ firstIndex df + fuel
  exact Nat.add_le_add_left (by decide) _

/-! ## What it leaves out -/

/-- The argument of the series lies between zero and one. -/
theorem argument_mem_Ico (hdf : 0 < df) (ht : 0 < t) : (df / (df + t ^ 2) : K) ∈ Set.Ico 0 1 := by
  have hcast : (0 : K) < df := Nat.cast_pos.mpr hdf
  have hsq : 0 < t ^ 2 := pow_pos ht 2
  exact ⟨by positivity, (div_lt_one (by positivity)).mpr (by linarith)⟩

/-- **The tail series is summed up to what does not count.** At `x = df / (df + t ^ 2)` the loop ends, after at most
    `2 ^ 54` terms. It has then added up the terms of the series from the first index to the one at which it
    ends, and all later terms together are at most `2 ^ -54 / (1 - x)` of that sum, however many are taken. -/
theorem tailSum_truncates (hdf : 0 < df) (ht : 0 < t) (hx : x = df / (df + t ^ 2)) :
    Ends (df % 2 == 0) x ⟨firstIndex df, firstTerm df x, 0⟩ (tailSum df x) ∧
    (tailSum df x).index ≤ firstIndex df + 2 ^ 54 ∧
    (tailSum df x).sum =
      ∑ k ∈ Finset.Ico (firstIndex df) (tailSum df x).index, coefficient (df % 2 == 0) k * x ^ k ∧
    ∀ n, ∑ k ∈ Finset.Icc (tailSum df x).index n, coefficient (df % 2 == 0) k * x ^ k ≤
      (tailSum df x).sum / 2 ^ 54 / (1 - x) := by
  obtain ⟨hx0, hx1⟩ : x ∈ Set.Ico 0 1 := hx ▸ argument_mem_Ico hdf ht
  have hends := ends_tailSum hx0 hx1.le df
  have hstart := summed_start df x
  have hsummed := hends.summed hstart
  refine ⟨hends, hends.index_le hstart hx0 hx1.le (Nat.le_add_right _ _), hsummed.sum, fun n => ?_⟩
  -- The first term that is left out is the one that did not count.
  have hlast : (tailSum df x).term ≤ (tailSum df x).sum / 2 ^ 54 := by
    rw [← not_lt, ← counts_iff]
    exact hends.not_counts
  calc ∑ k ∈ Finset.Icc (tailSum df x).index n, seriesTerm (df % 2 == 0) x k
      ≤ seriesTerm (df % 2 == 0) x (tailSum df x).index / (1 - x) := sum_seriesTerm_le hx0 hx1 _ _ n
    _ = (tailSum df x).term / (1 - x) := by rw [hsummed.term]
    _ ≤ (tailSum df x).sum / 2 ^ 54 / (1 - x) := div_le_div_of_nonneg_right hlast (sub_nonneg.mpr hx1.le)

/-- Four degrees of freedom at two, where `x` is one half: 51 terms count, and the later ones are at most
    `2 ^ -53` of their sum. -/
theorem tailSum_truncates_four :
    (1 / 2 : ℚ) = 4 / (4 + 2 ^ 2) ∧ (tailSum 4 (1 / 2 : ℚ)).index = 53 ∧
    (tailSum 4 (1 / 2 : ℚ)).sum = ∑ k ∈ Finset.Ico 2 53, coefficient true k * (1 / 2) ^ k ∧
    ∀ n, ∑ k ∈ Finset.Icc 53 n, coefficient true k * (1 / 2 : ℚ) ^ k ≤
      (tailSum 4 (1 / 2 : ℚ)).sum / 2 ^ 54 / (1 - 1 / 2) := by
  have hx : (1 / 2 : ℚ) = (4 : ℕ) / ((4 : ℕ) + 2 ^ 2) := by norm_num
  have hindex : (tailSum 4 (1 / 2 : ℚ)).index = 53 := by decide +kernel
  obtain ⟨_, _, hsum, homitted⟩ := tailSum_truncates (by decide) two_pos hx
  rw [hindex] at hsum homitted
  exact ⟨by norm_num, hindex, hsum, homitted⟩

end BatchMeans.StudentT.TailSeries
