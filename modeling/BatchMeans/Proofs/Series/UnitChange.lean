import BatchMeans.Proofs.Series.LeastBlockSize
import BatchMeans.Proofs.Series.Moments

/- Readings in another unit.

   A change of unit takes a reading `x` to `scale * x + shift`, where the scale is
   not zero. Means move along with the readings (`reduce_map`), distances from a
   centre that moves along are multiplied by the scale, and squares and cross
   products by its square. A coefficient is a quotient of the two and has no
   unit, so a block size qualifies in one unit exactly when it does in the
   other (`qualifies_map_iff`). A harmonic mean moves along only where nothing
   is shifted (`Suits`). -/
namespace BatchMeans

/-- A change of the unit of measurement, and of the point that counts as zero. -/
structure UnitChange (K : Type) [Zero K] where
  scale : K
  shift : K
  scale_ne_zero : scale ≠ 0

namespace UnitChange
section Reading
variable {K : Type} [Field K] (u : UnitChange K)

/-- A reading in the new unit. -/
def reading (x : K) : K := u.scale * x + u.shift

/-- The change back to the old unit. -/
def inverse : UnitChange K where
  scale := u.scale⁻¹
  shift := -(u.scale⁻¹ * u.shift)
  scale_ne_zero := inv_ne_zero u.scale_ne_zero

theorem inverse_reading (x : K) : u.inverse.reading (u.reading x) = x := by
  show u.scale⁻¹ * (u.scale * x + u.shift) + -(u.scale⁻¹ * u.shift) = x
  rw [mul_add, inv_mul_cancel_left₀ u.scale_ne_zero, add_neg_cancel_right]

theorem map_inverse_reading (xs : List K) : (xs.map u.reading).map u.inverse.reading = xs := by
  rw [List.map_map]
  exact List.map_id'' u.inverse_reading xs

theorem reading_sub_reading (x y : K) : u.reading x - u.reading y = u.scale * (x - y) := by
  rw [reading, reading]
  ring

/-- A harmonic mean has no meaning on a scale whose zero is moved. -/
def Suits (method : MeanMethod) : Prop := method = .harmonic → u.shift = 0

variable {u}

theorem Suits.inverse {method : MeanMethod} (h : u.Suits method) : u.inverse.Suits method := by
  intro hm
  show -(u.scale⁻¹ * u.shift) = 0
  rw [h hm, mul_zero, neg_zero]

theorem reading_of_shift_eq_zero (h : u.shift = 0) (x : K) : u.reading x = u.scale * x := by
  rw [reading, h, add_zero]

/-- Without a shift the sum of the reciprocals is divided by the scale. -/
theorem sum_reciprocals_map (h : u.shift = 0) (xs : List K) :
    ((xs.map u.reading).map fun x => 1 / x).sum = 1 / u.scale * (xs.map fun x => 1 / x).sum := by
  have hterm : ∀ x : K, 1 / u.reading x = 1 / u.scale * (1 / x) := by
    intro x
    rw [reading_of_shift_eq_zero h, one_div_mul_one_div]
  rw [List.map_map, ← List.sum_map_mul_left]
  exact congrArg List.sum (List.map_congr_left fun x _ => hterm x)

end Reading
end UnitChange

namespace Series
variable {K : Type} [Field K] [LinearOrder K] [IsStrictOrderedRing K] {u : UnitChange K}
  {xs : List K} {method : MeanMethod} {q : Nat}

/-! ## Means -/

/-- The mean of the readings in the new unit is the mean in the new unit. -/
theorem reduce_map (hu : u.Suits method) (hne : xs ≠ []) :
    method.reduce (xs.map u.reading) = u.reading (method.reduce xs) := by
  cases method with
  | arithmetic =>
    have hmean := reduce_map_affine u.scale u.shift (fun x => x) hne
    rwa [List.map_id'] at hmean
  | harmonic =>
    have hshift := hu rfl
    rw [reduce_harmonic, reduce_harmonic, List.length_map, UnitChange.sum_reciprocals_map hshift,
      UnitChange.reading_of_shift_eq_zero hshift, div_mul_eq_div_div, div_div_eq_mul_div, div_one,
      mul_comm (xs.length : K), mul_div_assoc]

/-- Without a shift every mean is multiplied by the scale. -/
theorem reduce_map_of_shift_eq_zero (h : u.shift = 0) (hne : xs ≠ []) :
    method.reduce (xs.map u.reading) = u.scale * method.reduce xs := by
  rw [reduce_map (fun _ => h) hne, UnitChange.reading_of_shift_eq_zero h]

/-- A harmonic mean has a divisor in one unit exactly when it has one in the other. -/
theorem sumBy_reciprocals_map_eq_zero_iff (h : u.shift = 0) (xs : List K) :
    Arith.sumBy MeanMethod.harmonic.term (xs.map u.reading) = 0 ↔
      Arith.sumBy MeanMethod.harmonic.term xs = 0 := by
  have hscale : 1 / u.scale ≠ 0 := one_div_ne_zero u.scale_ne_zero
  rw [Exact.sumBy_eq_sum, Exact.sumBy_eq_sum]
  show ((xs.map u.reading).map fun x => 1 / x).sum = 0 ↔ (xs.map fun x => 1 / x).sum = 0
  rw [UnitChange.sum_reciprocals_map h, mul_eq_zero_iff_left hscale]

/-- Block means move along with the readings. -/
theorem reduceBlocks_map (hu : u.Suits method) (hq : 1 ≤ q) :
    reduceBlocks (xs.map u.reading) q method = (reduceBlocks xs q method).map u.reading := by
  rw [reduceBlocks, reduceBlocks, blocks_map, List.map_map, List.map_map]
  exact List.map_congr_left fun b hb => reduce_map hu (ne_nil_of_mem_blocks hq hb)

/-! ## Squares and cross products -/

theorem squareSum_map (u : UnitChange K) (vs : List K) (c : K) :
    squareSum (vs.map u.reading) (u.reading c) = u.scale ^ 2 * squareSum vs c := by
  have hterm : ∀ v : K, (u.reading v - u.reading c) ^ 2 = u.scale ^ 2 * (v - c) ^ 2 := by
    intro v
    rw [UnitChange.reading_sub_reading, mul_pow]
  rw [squareSum_eq, squareSum_eq, List.map_map, ← List.sum_map_mul_left]
  exact congrArg List.sum (List.map_congr_left fun v _ => hterm v)

theorem spread_map (u : UnitChange K) (vs : List K) (c : K) :
    spread (vs.map u.reading) (u.reading c) = u.scale ^ 2 * spread vs c := by
  rw [spread_eq, spread_eq, squareSum_map, List.length_map, mul_div_assoc]

/-- The variance around the own mean of the values is in the square of the new unit. -/
theorem spread_reduce_map (u : UnitChange K) {vs : List K} (hne : vs ≠ []) :
    spread (vs.map u.reading) (MeanMethod.arithmetic.reduce (vs.map u.reading)) =
      u.scale ^ 2 * spread vs (MeanMethod.arithmetic.reduce vs) := by
  have hu : u.Suits .arithmetic := fun h => (nomatch h)
  rw [reduce_map hu hne, spread_map]

theorem crossSum_map (u : UnitChange K) (pairs : List (K × K)) (c : K) :
    crossSum (pairs.map (Prod.map u.reading u.reading)) (u.reading c) =
      u.scale ^ 2 * crossSum pairs c := by
  have hterm : ∀ p : K × K, (u.reading p.1 - u.reading c) * (u.reading p.2 - u.reading c) =
      u.scale ^ 2 * ((p.1 - c) * (p.2 - c)) := by
    intro p
    rw [UnitChange.reading_sub_reading, UnitChange.reading_sub_reading]
    ring
  rw [crossSum, crossSum, Exact.sumBy_eq_sum, Exact.sumBy_eq_sum, List.map_map,
    ← List.sum_map_mul_left]
  exact congrArg List.sum (List.map_congr_left fun p _ => hterm p)

/-- A coefficient has no unit. -/
theorem coefficientOf_map (u : UnitChange K) (vs : List K) (c : K) :
    coefficientOf (vs.map u.reading) (u.reading c) = coefficientOf vs c := by
  have hsq : u.scale ^ 2 ≠ 0 := pow_ne_zero 2 u.scale_ne_zero
  have hcross : crossSum ((vs.map u.reading).zip (vs.map u.reading).tail) (u.reading c) =
      u.scale ^ 2 * crossSum (vs.zip vs.tail) c := by
    rw [← List.map_tail, List.zip_map, crossSum_map]
  rw [coefficientOf, coefficientOf, hcross, spread_map, List.length_map, mul_div_assoc,
    mul_div_mul_left _ _ hsq]

/-! ## The search -/

theorem Accepts.map (h : Accepts xs method) (hu : u.Suits method) :
    Accepts (xs.map u.reading) method where
  nonempty := mt List.map_eq_nil_iff.mp h.nonempty
  finite := fun _ _ => rfl
  nonzero := by
    intro hm y hy
    obtain ⟨x, hx, rfl⟩ := List.mem_map.mp hy
    have hx0 : x ≠ 0 := mt (Exact.isZero_iff x).mpr (h.nonzero hm x hx)
    rw [Exact.isZero_iff, UnitChange.reading_of_shift_eq_zero (hu hm)]
    exact mul_ne_zero u.scale_ne_zero hx0

/-- The coefficient between neighbouring blocks, or the lack of one, is the same in both units. -/
theorem blockAutocorrelation_map (h : Accepts xs method) (hu : u.Suits method)
    (hq : 2 ≤ xs.length / q) (c : K) :
    (blockAutocorrelation (xs.map u.reading) q (u.reading c) method).toOption =
      (blockAutocorrelation xs q c method).toOption ∧
    effectiveCoefficient? (xs.map u.reading) q (u.reading c) method =
      effectiveCoefficient? xs q c method := by
  have hsq : u.scale ^ 2 ≠ 0 := pow_ne_zero 2 u.scale_ne_zero
  have hq' : 2 ≤ (xs.map u.reading).length / q := by rwa [List.length_map]
  have hnew : blockAutocorrelation (xs.map u.reading) q (u.reading c) method = _ :=
    blockAutocorrelation_eq (h.map hu) hq' rfl
  have hold : blockAutocorrelation xs q c method = _ := blockAutocorrelation_eq h hq rfl
  rw [reduceBlocks_map hu (two_le_div_iff.mp hq).1, spread_map, coefficientOf_map] at hnew
  rw [effectiveCoefficient?, effectiveCoefficient?, hnew, hold]
  -- The block means vary in one unit exactly when they do in the other.
  by_cases hz : spread (reduceBlocks xs q method) c = 0
  · simp [hz, Except.toOption]
  · simp [hz, hsq, Except.toOption]

theorem qualifies_map_iff (h : Accepts xs method) (hu : u.Suits method) (limit : K) :
    Qualifies (xs.map u.reading) (method.reduce (xs.map u.reading)) method limit q ↔
      Qualifies xs (method.reduce xs) method limit q := by
  rw [reduce_map hu h.nonempty, Qualifies, Qualifies, List.length_map]
  refine and_congr_right fun _ => and_congr_right fun hq => ?_
  rw [(blockAutocorrelation_map h hu hq _).2]

/-- The search finds the same block size in both units. -/
theorem blockSize?_map (h : Accepts xs method) (hu : u.Suits method) (limit : K) :
    blockSize? (xs.map u.reading) method limit = blockSize? xs method limit := by
  have hlen : (xs.map u.reading).length = xs.length := List.length_map _
  by_cases hn : 2 ≤ xs.length
  · have hn' : 2 ≤ (xs.map u.reading).length := by rwa [hlen]
    by_cases hl : 0 ≤ limit
    · obtain ⟨r, hr, hleast⟩ := blockSize?_isLeastOf h hn rfl hl
      obtain ⟨r', hr', hleast'⟩ := blockSize?_isLeastOf (h.map hu) hn' rfl hl
      have hsame : Qualifies (xs.map u.reading) (method.reduce (xs.map u.reading)) method limit =
          Qualifies xs (method.reduce xs) method limit := by
        funext q
        exact propext (qualifies_map_iff h hu limit)
      rw [hsame] at hleast'
      rw [hr, hr', hleast.eq hleast']
    · rw [blockSize?_of_negative hn' hl, blockSize?_of_negative hn hl]
  · rw [blockSize?_of_short hn, blockSize?_of_short (by rwa [hlen]), hlen]

end Series
end BatchMeans
