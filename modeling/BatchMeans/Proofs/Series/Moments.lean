import Mathlib.Algebra.BigOperators.Field
import Mathlib.Data.Nat.Cast.Field
import Mathlib.Tactic.FieldSimp
import Mathlib.Tactic.Ring
import Mathlib.Tactic.Positivity
import BatchMeans.Proofs.Arith.Exact
import BatchMeans.Proofs.Series.Acceptance
import BatchMeans.Proofs.Series.Cutting

/- Means and variances of exact numbers.

   In an ordered field the mean, the squares around a centre and the cross
   products are plain sums. The squares are least around the values' own mean,
   and a shift of the centre adds its square once for each value
   (`squareSum_shift`). A harmonic mean is the plain mean seen through reciprocals, so
   that by either method the term of the mean is the mean of the terms (`term_reduce`);
   blocks that use up the whole series hence have the mean of the series as the mean of
   their means (`reduce_reduceBlocks`). -/
namespace BatchMeans.Series
variable {K : Type} [Field K] [LinearOrder K] [IsStrictOrderedRing K]

/-- The divisor of a mean. -/
theorem length_cast_pos {β : Type} {ys : List β} (hne : ys ≠ []) : 0 < (ys.length : K) :=
  Nat.cast_pos.mpr (List.length_pos_iff.mpr hne)

theorem reduce_arithmetic (xs : List K) :
    MeanMethod.arithmetic.reduce xs = xs.sum / (xs.length : K) := by
  have hsum : Arith.sumBy MeanMethod.arithmetic.term xs = xs.sum := by
    rw [Exact.sumBy_eq_sum]
    exact congrArg List.sum (List.map_id xs)
  show Arith.sumBy MeanMethod.arithmetic.term xs / (xs.length : K) = _
  rw [hsum]

theorem reduce_harmonic (xs : List K) :
    MeanMethod.harmonic.reduce xs = (xs.length : K) / (xs.map fun x => 1 / x).sum := by
  show (xs.length : K) / Arith.sumBy MeanMethod.harmonic.term xs = _
  rw [Exact.sumBy_eq_sum]
  rfl

/-- The order of the readings does not matter. -/
theorem reduce_perm (method : MeanMethod) {xs ys : List K} (h : xs.Perm ys) :
    method.reduce xs = method.reduce ys := by
  simp only [MeanMethod.reduce, Exact.sumBy_perm _ h, h.length_eq]

/-- A term of a term is the reading. -/
theorem term_term (method : MeanMethod) (x : K) : method.term (method.term x) = x := by
  cases method with
  | arithmetic => rfl
  | harmonic => exact one_div_one_div x

/-- By either method the term of the mean is the plain mean of the terms. -/
theorem term_reduce (method : MeanMethod) (xs : List K) :
    method.term (method.reduce xs) = (xs.map method.term).sum / (xs.length : K) := by
  cases method with
  | arithmetic =>
    rw [reduce_arithmetic]
    exact congrArg (fun ys : List K => ys.sum / (xs.length : K)) (List.map_id xs).symm
  | harmonic =>
    rw [reduce_harmonic]
    exact one_div_div _ _

theorem squareSum_eq (vs : List K) (c : K) : squareSum vs c = (vs.map fun v => (v - c) ^ 2).sum := by
  simp only [squareSum, Exact.sumBy_eq_sum, Exact.square_eq]

theorem spread_eq (vs : List K) (c : K) : spread vs c = squareSum vs c / ((vs.length - 1 : ℕ) : K) := rfl

theorem sum_of_reduce (vs : List K) :
    vs.sum = (vs.length : K) * MeanMethod.arithmetic.reduce vs := by
  rw [reduce_arithmetic]
  refine (mul_div_cancel_of_imp' fun hlen => ?_).symm
  rw [List.eq_nil_of_length_eq_zero (Nat.cast_eq_zero.mp hlen), List.sum_nil]

/-- Distances from the mean add up to zero. -/
theorem sum_sub_reduce (vs : List K) :
    (vs.map fun v => v - MeanMethod.arithmetic.reduce vs).sum = 0 := by
  have hsum := sum_of_reduce vs
  set m := MeanMethod.arithmetic.reduce vs
  have hshift : ∀ v : K, v - m = 1 * v + -m := by
    intro v
    rw [one_mul, sub_eq_add_neg]
  rw [List.map_congr_left fun v _ => hshift v, Exact.sum_map_affine, List.map_id', one_mul, hsum, mul_neg,
    add_neg_cancel]

/-- The mean of equal readings is the reading, by either method. -/
theorem reduce_of_forall_eq {xs : List K} {x : K} (method : MeanMethod) (hne : xs ≠ [])
    (h : ∀ y ∈ xs, y = x) : method.reduce xs = x := by
  have hlen : (xs.length : K) ≠ 0 := (length_cast_pos hne).ne'
  have hxs : xs = List.replicate xs.length x := List.eq_replicate_of_mem h
  cases method with
  | arithmetic =>
    have hsum : xs.sum = xs.length * x := by
      rw [hxs, List.sum_replicate, nsmul_eq_mul, List.length_replicate]
    rw [reduce_arithmetic, hsum, mul_div_cancel_left₀ x hlen]
  | harmonic =>
    have hsum : (xs.map fun y => 1 / y).sum = xs.length * (1 / x) := by
      rw [hxs, List.map_replicate, List.sum_replicate, nsmul_eq_mul, List.length_replicate]
    rw [reduce_harmonic, hsum, div_mul_eq_div_div, div_self hlen, one_div_one_div]

/-- The arithmetic mean of multiples that are all shifted alike. -/
theorem reduce_map_affine {β : Type} (c d : K) (f : β → K) {ys : List β} (hne : ys ≠ []) :
    MeanMethod.arithmetic.reduce (ys.map fun y => c * f y + d) =
      c * MeanMethod.arithmetic.reduce (ys.map f) + d := by
  have hlen : (ys.length : K) ≠ 0 := (length_cast_pos hne).ne'
  rw [reduce_arithmetic, reduce_arithmetic, Exact.sum_map_affine, List.length_map, List.length_map,
    add_div, mul_div_assoc, mul_div_cancel_left₀ d hlen]

theorem reduce_map_add {β : Type} (f g : β → K) (ys : List β) :
    MeanMethod.arithmetic.reduce (ys.map fun y => f y + g y) =
      MeanMethod.arithmetic.reduce (ys.map f) + MeanMethod.arithmetic.reduce (ys.map g) := by
  rw [reduce_arithmetic, reduce_arithmetic, reduce_arithmetic, List.sum_map_add, List.length_map,
    List.length_map, List.length_map, add_div]

/-- The harmonic mean of positive readings is positive. -/
theorem reduce_harmonic_pos {xs : List K} (hne : xs ≠ []) (h : ∀ x ∈ xs, 0 < x) :
    0 < MeanMethod.harmonic.reduce xs := by
  rw [reduce_harmonic]
  exact div_pos (length_cast_pos hne) (Exact.sum_map_pos hne fun x hx => one_div_pos.mpr (h x hx))

/-- A harmonic mean is a quotient of two sums: of ones, and of reciprocals. -/
theorem reduce_harmonic_eq_div (xs : List K) :
    MeanMethod.harmonic.reduce xs = (xs.map fun _ => 1).sum / (xs.map fun x => 1 / x).sum := by
  rw [reduce_harmonic, List.map_const', List.sum_replicate, nsmul_one]

theorem le_reduce_harmonic {xs : List K} {bound : K} (hne : xs ≠ []) (hpos : ∀ x ∈ xs, 0 < x)
    (h : ∀ x ∈ xs, bound ≤ x) : bound ≤ MeanMethod.harmonic.reduce xs := by
  rw [reduce_harmonic_eq_div]
  apply Exact.le_sum_div_sum hne
  · intro x hx
    exact one_div_pos.mpr (hpos x hx)
  · intro x hx
    rw [one_div_one_div]
    exact h x hx

theorem reduce_harmonic_le {xs : List K} {bound : K} (hne : xs ≠ []) (hpos : ∀ x ∈ xs, 0 < x)
    (h : ∀ x ∈ xs, x ≤ bound) : MeanMethod.harmonic.reduce xs ≤ bound := by
  rw [reduce_harmonic_eq_div]
  apply Exact.sum_div_sum_le hne
  · intro x hx
    exact one_div_pos.mpr (hpos x hx)
  · intro x hx
    rw [one_div_one_div]
    exact h x hx

/-! ## The centre -/

/-- A shift of the centre away from the mean adds its square once for each value. -/
theorem squareSum_shift (vs : List K) (c : K) :
    squareSum vs c = squareSum vs (MeanMethod.arithmetic.reduce vs) +
      (vs.length : K) * (c - MeanMethod.arithmetic.reduce vs) ^ 2 := by
  have hsum := sum_of_reduce vs
  set m := MeanMethod.arithmetic.reduce vs
  -- Around the mean the terms that are linear in the values cancel.
  have hterm : ∀ v : K, (v - c) ^ 2 = (v - m) ^ 2 + (2 * (m - c) * v + (c ^ 2 - m ^ 2)) :=
    fun v => by ring
  calc squareSum vs c
      = (vs.map fun v => (v - m) ^ 2 + (2 * (m - c) * v + (c ^ 2 - m ^ 2))).sum := by
        rw [squareSum_eq, List.map_congr_left fun v _ => hterm v]
    _ = squareSum vs m + (2 * (m - c) * vs.sum + (vs.length : K) * (c ^ 2 - m ^ 2)) := by
        rw [List.sum_map_add, Exact.sum_map_affine, List.map_id', squareSum_eq]
    _ = squareSum vs m + (vs.length : K) * (c - m) ^ 2 := by
        rw [hsum]
        ring

theorem squareSum_nonneg (vs : List K) (c : K) : 0 ≤ squareSum vs c :=
  Exact.sumBy_nonneg vs fun _ => Exact.square_nonneg _

/-- The squares around a centre are no less than if every value were the mean. -/
theorem length_mul_sq_le_squareSum (vs : List K) (c : K) :
    (vs.length : K) * (c - MeanMethod.arithmetic.reduce vs) ^ 2 ≤ squareSum vs c := by
  rw [squareSum_shift vs c]
  exact le_add_of_nonneg_left (squareSum_nonneg vs _)

/-- Squares add up to zero only where every value is the centre. -/
theorem squareSum_eq_zero_iff (vs : List K) (c : K) : squareSum vs c = 0 ↔ ∀ v ∈ vs, v = c := by
  rw [squareSum, Exact.sumBy_eq_zero_iff vs fun _ => Exact.square_nonneg _]
  simp [sub_eq_zero]

theorem spread_nonneg (vs : List K) (c : K) : 0 ≤ spread vs c :=
  div_nonneg (squareSum_nonneg vs c) (Nat.cast_nonneg _)

/-- All values are equal. -/
def Coincide (vs : List K) : Prop := ∀ v ∈ vs, ∀ w ∈ vs, v = w

instance instDecidableCoincide (vs : List K) : Decidable (Coincide vs) :=
  inferInstanceAs (Decidable (∀ v ∈ vs, ∀ w ∈ vs, v = w))

omit [Field K] [LinearOrder K] [IsStrictOrderedRing K] in
theorem Coincide.mono {vs ws : List K} (hws : Coincide ws) (h : vs ⊆ ws) : Coincide vs :=
  fun v hv w hw => hws v (h hv) w (h hw)

/-- All values are their mean only where all are equal. -/
theorem forall_eq_reduce_iff (vs : List K) :
    (∀ v ∈ vs, v = MeanMethod.arithmetic.reduce vs) ↔ Coincide vs := by
  constructor
  · intro h v hv w hw
    rw [h v hv, h w hw]
  · intro h v hv
    have hne : vs ≠ [] := List.ne_nil_of_mem hv
    exact (reduce_of_forall_eq .arithmetic hne fun w hw => h w hw v hv).symm

/-- The variance of two values or more vanishes with their squares. -/
theorem spread_eq_zero_iff {vs : List K} (hn : 2 ≤ vs.length) (c : K) :
    spread vs c = 0 ↔ squareSum vs c = 0 := by
  have hlen : ((vs.length - 1 : ℕ) : K) ≠ 0 := Nat.cast_ne_zero.mpr (by omega)
  rw [spread_eq, div_eq_zero_iff, or_iff_left hlen]

/-- Two values or more vary around their mean unless all are equal. -/
theorem spread_reduce_eq_zero_iff {vs : List K} (hn : 2 ≤ vs.length) :
    spread vs (MeanMethod.arithmetic.reduce vs) = 0 ↔ Coincide vs := by
  rw [spread_eq_zero_iff hn, squareSum_eq_zero_iff, forall_eq_reduce_iff]

/-- The variance around a shifted centre. -/
theorem spread_shift {vs : List K} (hn : 1 ≤ vs.length) (c : K) :
    spread vs c = spread vs (MeanMethod.arithmetic.reduce vs) +
      (vs.length : K) / ((vs.length : K) - 1) * (c - MeanMethod.arithmetic.reduce vs) ^ 2 := by
  rw [spread_eq, spread_eq, squareSum_shift vs c, add_div, Nat.cast_sub hn, Nat.cast_one,
    mul_div_right_comm]

/-- The weight of the shift: it does not vanish. -/
theorem length_div_pos {vs : List K} (hn : 2 ≤ vs.length) :
    0 < (vs.length : K) / ((vs.length : K) - 1) := by
  have hone : (1 : K) < vs.length := Nat.one_lt_cast.mpr hn
  exact div_pos (zero_lt_one.trans hone) (sub_pos.mpr hone)

/-- No centre brings the variance below that around the mean. -/
theorem spread_reduce_le (vs : List K) (c : K) :
    spread vs (MeanMethod.arithmetic.reduce vs) ≤ spread vs c := by
  rw [spread_eq, spread_eq, squareSum_shift vs c]
  refine div_le_div_of_nonneg_right ?_ (Nat.cast_nonneg _)
  have : 0 ≤ (vs.length : K) * (c - MeanMethod.arithmetic.reduce vs) ^ 2 := by positivity
  exact le_add_of_nonneg_right this

/-- Only the mean itself leaves the variance where it is. -/
theorem spread_eq_spread_reduce_iff {vs : List K} (hn : 2 ≤ vs.length) (c : K) :
    spread vs c = spread vs (MeanMethod.arithmetic.reduce vs) ↔
      c = MeanMethod.arithmetic.reduce vs := by
  rw [spread_shift (by omega) c, add_eq_left, mul_eq_zero_iff_left (length_div_pos hn).ne',
    pow_eq_zero_iff two_ne_zero, sub_eq_zero]

/-! ## Blocks -/

/-- The mean of a block of one reading is the reading. -/
theorem reduceBlocks_one (xs : List K) (method : MeanMethod) : reduceBlocks xs 1 method = xs := by
  have hsingle : ∀ x : K, method.reduce [x] = x := fun x =>
    reduce_of_forall_eq method (List.cons_ne_nil x []) (by simp)
  rw [reduceBlocks, blocks_one, List.map_map]
  simp [Function.comp_def, hsingle]

omit [LinearOrder K] [IsStrictOrderedRing K] in
/-- What the readings of the blocks add up to, block by block. -/
theorem sum_map_blocks {β : Type} (q : Nat) (f : β → K) (xs : List β) :
    ((blocks q xs).map fun b => (b.map f).sum).sum = ((xs.take (xs.length / q * q)).map f).sum := by
  rw [← flatten_blocks, List.map_flatten, List.sum_flatten, List.map_map]
  rfl

/-- The terms of the block means, added up, are those of the readings over the size of a block. -/
theorem sum_terms_reduceBlocks {xs : List K} {q : Nat} (method : MeanMethod) (h : q ∣ xs.length) :
    ((reduceBlocks xs q method).map method.term).sum = (xs.map method.term).sum * (1 / (q : K)) := by
  have hblock : ∀ b ∈ blocks q xs,
      method.term (method.reduce b) = (b.map method.term).sum * (1 / (q : K)) := by
    intro b hb
    rw [term_reduce, length_of_mem_blocks hb, mul_one_div]
  calc ((reduceBlocks xs q method).map method.term).sum
      = ((blocks q xs).map fun b => (b.map method.term).sum * (1 / (q : K))).sum := by
        rw [reduceBlocks, List.map_map]
        exact congrArg List.sum (List.map_congr_left hblock)
    _ = (xs.map method.term).sum * (1 / (q : K)) := by
        rw [List.sum_map_mul_right, sum_map_blocks, Nat.div_mul_cancel h, List.take_length]

/-- The mean of the means of blocks that leave no tail is the mean of the series, by either method. -/
theorem reduce_reduceBlocks {xs : List K} {q : Nat} {method : MeanMethod} (hq : 1 ≤ q)
    (h : q ∣ xs.length) : method.reduce (reduceBlocks xs q method) = method.reduce xs := by
  have hq0 : (q : K) ≠ 0 := Nat.cast_ne_zero.mpr (by omega)
  have hterm : method.term (method.reduce (reduceBlocks xs q method)) =
      method.term (method.reduce xs) := by
    rw [term_reduce, term_reduce, sum_terms_reduceBlocks method h, length_reduceBlocks,
      Nat.cast_div h hq0]
    field_simp
  rw [← term_term method (method.reduce (reduceBlocks xs q method)), hterm, term_term]

/-! ## Statistics of exact readings -/

/-- Every exact number is finite, so the harmonic mean alone has something to ask of the readings. -/
theorem accepts_of_ne_zero {xs : List K} {method : MeanMethod} (hne : xs ≠ [])
    (h : method = .harmonic → ∀ x ∈ xs, x ≠ 0) : Accepts xs method :=
  ⟨hne, fun _ _ => rfl, fun hm x hx hz => h hm x hx ((Exact.isZero_iff x).mp hz)⟩

theorem accepts_of_pos {xs : List K} (method : MeanMethod) (hne : xs ≠ []) (h : ∀ x ∈ xs, 0 < x) :
    Accepts xs method := accepts_of_ne_zero hne fun _ x hx => (h x hx).ne'

theorem accepts_arithmetic {xs : List K} (hne : xs ≠ []) : Accepts xs .arithmetic :=
  accepts_of_ne_zero hne fun h => (nomatch h)

theorem mean_arithmetic_eq_ok {xs : List K} (hne : xs ≠ []) :
    mean xs .arithmetic = .ok (MeanMethod.arithmetic.reduce xs) :=
  mean_eq_ok (accepts_arithmetic hne)

/-- The variance of blocks of one reading is that of the readings. -/
theorem blockVariance_one_eq_ok {xs : List K} (hn : 2 ≤ xs.length) (c : K) :
    blockVariance xs 1 c .arithmetic = .ok (spread xs c) := by
  have hne : xs ≠ [] := List.ne_nil_of_length_pos (by omega)
  rw [blockVariance_eq_ok (accepts_arithmetic hne) (by rwa [Nat.div_one]) rfl, reduceBlocks_one]

end BatchMeans.Series
