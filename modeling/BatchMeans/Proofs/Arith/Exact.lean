import Mathlib.Algebra.BigOperators.Group.List.Basic
import Mathlib.Analysis.Real.Sqrt
import Mathlib.Algebra.Order.BigOperators.Group.List
import Mathlib.Algebra.Order.Field.Basic
import Mathlib.Order.Interval.Set.UnorderedInterval
import BatchMeans.Proofs.Arith.Ordered

/- Exact numbers as an arithmetic.

   Any ordered field is an arithmetic in which every number is finite and
   nothing is rounded. The real numbers have roots and counts as well; where a law
   does not rest on what these are, any will do (`Exact.Roots`). The lemmas below
   say what the operations of the library are there, so that a law about a
   statistic is proved with the operations of the field. A quotient whose divisor
   is zero is zero, as is usual for fields. -/
namespace BatchMeans

instance instArithField {K : Type} [Field K] [LinearOrder K] [IsStrictOrderedRing K] : Arith K where
  zero := 0
  one := 1
  natCast := fun n => (n : K)
  add := (· + ·)
  sub := (· - ·)
  mul := (· * ·)
  div := (· / ·)
  lt := (· < ·)
  le := (· ≤ ·)
  decidableLT := inferInstance
  decidableLE := inferInstance
  abs := fun x => |x|
  isFinite := fun _ => true

noncomputable instance instRootArithReal : RootArith ℝ where
  sqrt := Real.sqrt
  ceilNat := fun x => some ⌈x⌉₊

/-- Roots and counts for exact numbers that may have none of their own, such as the rational ones. Nothing
    is asked of them. -/
class Exact.Roots (K : Type) where
  sqrt : K → K
  ceilNat : K → Option Nat

instance (priority := low) instRootArithField {K : Type} [Field K] [LinearOrder K]
    [IsStrictOrderedRing K] [Exact.Roots K] : RootArith K where
  sqrt := Exact.Roots.sqrt
  ceilNat := Exact.Roots.ceilNat

namespace Exact
variable {K : Type} [Field K] [LinearOrder K] [IsStrictOrderedRing K]

instance instOrderedArithField : OrderedArith K where
  le_trans := fun h h' => le_trans h h'
  le_of_lt := fun h => le_of_lt h
  abs_one := abs_one

@[simp] theorem isFinite_eq (x : K) : Arith.isFinite x = true := rfl

@[simp] theorem abs_eq (x : K) : Arith.abs x = |x| := rfl

@[simp] theorem count_eq (n : Nat) : (Arith.count n : K) = n := rfl

@[simp] theorem square_eq (x : K) : Arith.square x = x ^ 2 := (sq x).symm

theorem square_nonneg (x : K) : 0 ≤ Arith.square x := mul_self_nonneg x

@[simp] theorem isZero_iff (x : K) : Arith.IsZero x ↔ x = 0 := le_antisymm_iff.symm

@[simp] theorem isPositive_iff (x : K) : Arith.IsPositive x ↔ 0 < x :=
  ⟨fun h => h.1, fun h => ⟨h, rfl⟩⟩

@[simp] theorem sqrt_eq (x : ℝ) : RootArith.sqrt x = Real.sqrt x := rfl

@[simp] theorem ceilNat_eq (x : ℝ) : RootArith.ceilNat x = some ⌈x⌉₊ := rfl

/-- Without rounding the order of a sum does not matter. -/
theorem sumBy_eq_sum {β : Type} (f : β → K) (xs : List β) :
    Arith.sumBy f xs = (xs.map f).sum := by
  induction xs using List.reverseRecOn with
  | nil => rfl
  | append_singleton xs x ih =>
    rw [Arith.sumBy_concat, ih, List.map_append, List.sum_append, List.map_singleton,
      List.sum_singleton]

theorem sumBy_perm {β : Type} (f : β → K) {xs ys : List β} (h : xs.Perm ys) :
    Arith.sumBy f xs = Arith.sumBy f ys := by
  rw [sumBy_eq_sum, sumBy_eq_sum, (h.map f).sum_eq]

theorem sumBy_append {β : Type} (f : β → K) (xs ys : List β) :
    Arith.sumBy f (xs ++ ys) = Arith.sumBy f xs + Arith.sumBy f ys := by
  rw [sumBy_eq_sum, sumBy_eq_sum, sumBy_eq_sum, List.map_append, List.sum_append]

omit [LinearOrder K] [IsStrictOrderedRing K] in
/-- Multiples that are all shifted by the same number. -/
theorem sum_map_affine {β : Type} (c d : K) (f : β → K) (xs : List β) :
    (xs.map fun x => c * f x + d).sum = c * (xs.map f).sum + xs.length * d := by
  rw [List.sum_map_add, List.sum_map_mul_left, List.map_const', List.sum_replicate, nsmul_eq_mul]

/-- Sums of terms that are pairwise close. -/
theorem abs_sum_map_sub_le {β : Type} {f g : β → K} {c : K} {xs : List β}
    (h : ∀ x ∈ xs, |f x - g x| ≤ c) : |(xs.map f).sum - (xs.map g).sum| ≤ xs.length * c := by
  induction xs with
  | nil => simp
  | cons x xs ih =>
    obtain ⟨hx, hxs⟩ := List.forall_mem_cons.mp h
    have hrest := ih hxs
    simp only [List.map_cons, List.sum_cons, List.length_cons, Nat.cast_succ, add_one_mul]
    calc |f x + (xs.map f).sum - (g x + (xs.map g).sum)|
        = |(f x - g x) + ((xs.map f).sum - (xs.map g).sum)| := by rw [add_sub_add_comm]
      _ ≤ |f x - g x| + |(xs.map f).sum - (xs.map g).sum| := abs_add_le _ _
      _ ≤ xs.length * c + c := by rw [add_comm]; exact add_le_add hrest hx

section Nonneg
variable {β : Type} {f : β → K} {xs : List β}

theorem sum_map_nonneg (h : ∀ x ∈ xs, 0 ≤ f x) : 0 ≤ (xs.map f).sum := by
  apply List.sum_nonneg
  intro y hy
  obtain ⟨x, hx, rfl⟩ := List.mem_map.mp hy
  exact h x hx

/-- Terms that are not negative add up to zero only when each is zero. -/
theorem sum_map_eq_zero_iff (h : ∀ x ∈ xs, 0 ≤ f x) : (xs.map f).sum = 0 ↔ ∀ x ∈ xs, f x = 0 := by
  constructor
  · intro hsum x hx
    apply List.all_zero_of_le_zero_le_of_sum_eq_zero _ hsum (List.mem_map_of_mem hx)
    intro y hy
    obtain ⟨x, hx, rfl⟩ := List.mem_map.mp hy
    exact h x hx
  · intro hzero
    apply List.sum_eq_zero
    intro y hy
    obtain ⟨x, hx, rfl⟩ := List.mem_map.mp hy
    exact hzero x hx

theorem sumBy_nonneg (xs : List β) (hf : ∀ x, 0 ≤ f x) : 0 ≤ Arith.sumBy f xs := by
  rw [sumBy_eq_sum]
  exact sum_map_nonneg fun x _ => hf x

theorem sumBy_eq_zero_iff (xs : List β) (hf : ∀ x, 0 ≤ f x) :
    Arith.sumBy f xs = 0 ↔ ∀ x ∈ xs, f x = 0 := by
  rw [sumBy_eq_sum]
  exact sum_map_eq_zero_iff fun x _ => hf x

end Nonneg

section Quotients
variable {β : Type} {a b : β → K} {xs : List β} {bound : K}

theorem sum_map_pos (hne : xs ≠ []) (hb : ∀ x ∈ xs, 0 < b x) : 0 < (xs.map b).sum := by
  apply List.sum_pos
  · intro y hy
    obtain ⟨x, hx, rfl⟩ := List.mem_map.mp hy
    exact hb x hx
  · simpa using hne

/-- A quotient of two sums is not below what none of the quotients of their terms is below. -/
theorem le_sum_div_sum (hne : xs ≠ []) (hb : ∀ x ∈ xs, 0 < b x) (h : ∀ x ∈ xs, bound ≤ a x / b x) :
    bound ≤ (xs.map a).sum / (xs.map b).sum := by
  rw [le_div_iff₀ (sum_map_pos hne hb), ← List.sum_map_mul_left]
  apply List.sum_le_sum
  intro x hx
  exact (le_div_iff₀ (hb x hx)).mp (h x hx)

/-- Nor is it above what none of them is above. -/
theorem sum_div_sum_le (hne : xs ≠ []) (hb : ∀ x ∈ xs, 0 < b x) (h : ∀ x ∈ xs, a x / b x ≤ bound) :
    (xs.map a).sum / (xs.map b).sum ≤ bound := by
  rw [div_le_iff₀ (sum_map_pos hne hb), ← List.sum_map_mul_left]
  apply List.sum_le_sum
  intro x hx
  exact (div_le_iff₀ (hb x hx)).mp (h x hx)

/-- With two terms it lies between their quotients. -/
theorem add_div_add_mem_uIcc {a b c d : K} (hb : 0 < b) (hd : 0 < d) :
    (a + c) / (b + d) ∈ Set.uIcc (a / b) (c / d) := by
  have hne : [(a, b), (c, d)] ≠ [] := List.cons_ne_nil _ _
  have hpos : ∀ p ∈ [(a, b), (c, d)], 0 < p.2 := by simp [hb, hd]
  have hlo : ∀ p ∈ [(a, b), (c, d)], min (a / b) (c / d) ≤ p.1 / p.2 := by simp
  have hhi : ∀ p ∈ [(a, b), (c, d)], p.1 / p.2 ≤ max (a / b) (c / d) := by simp
  have hle := le_sum_div_sum hne hpos hlo
  have hge := sum_div_sum_le hne hpos hhi
  simp only [List.map_cons, List.map_nil, List.sum_cons, List.sum_nil, add_zero] at hle hge
  exact ⟨hle, hge⟩

end Quotients

end Exact
end BatchMeans
