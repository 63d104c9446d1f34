import BatchMeans.Proofs.Analysis.Decision
import BatchMeans.Proofs.Series.UnitChange

/- An analysis does not depend on the unit of measurement.

   In exact numbers the analysis of the readings in another unit, with the width
   that is aimed at taken to that unit too, is the analysis of the readings taken
   to that unit: counts, block size and coefficient stay, the mean moves along,
   widths are multiplied by the size of the scale and the variance by its square.
   It is enough to show this for what an analysis is (`Analyzed.inUnit`); as a
   change of unit can be undone, an analysis in the new unit is one in the old
   (`analyze_inUnit`). The critical value may be any function of the degrees of
   freedom and the level. -/
namespace BatchMeans
open Series

section Unit
variable {K : Type} [Field K] [LinearOrder K] [IsStrictOrderedRing K]

/-- The settings with the wanted width in the new unit. -/
def Settings.inUnit (u : UnitChange K) (s : Settings K) : Settings K :=
  { s with width := s.width.map (|u.scale| * ·) }

/-- The part about blocks in the new unit. -/
def BlockAnalysis.inUnit (u : UnitChange K) (b : BlockAnalysis K) : BlockAnalysis K where
  blockSize := b.blockSize
  interval := ⟨u.reading b.interval.point, |u.scale| * b.interval.halfWidth, b.interval.level⟩
  variance := u.scale ^ 2 * b.variance
  coefficient := b.coefficient
  required := b.required

/-- An analysis in the new unit. -/
def Analysis.inUnit (u : UnitChange K) (a : Analysis K) : Analysis K where
  sampleSize := a.sampleSize
  mean := u.reading a.mean
  blocks := a.blocks.map (·.inUnit u)

variable (u : UnitChange K) {s : Settings K}

theorem abs_scale_pos : 0 < |u.scale| := abs_pos.mpr u.scale_ne_zero

/-- An interval is narrow enough in one unit exactly when it is in the other. -/
theorem Analysis.meetsWidth_inUnit (a : Analysis K) (width : K) :
    (a.inUnit u).meetsWidth (|u.scale| * width) = a.meetsWidth width := by
  obtain ⟨n, m, blocks⟩ := a
  cases blocks with
  | none => rfl
  | some b =>
    refine decide_eq_decide.mpr ?_
    show |u.scale| * b.interval.halfWidth * ((2 : ℕ) : K) ≤ |u.scale| * width ↔
      b.interval.halfWidth * ((2 : ℕ) : K) ≤ width
    rw [mul_assoc, mul_le_mul_iff_of_pos_left (abs_scale_pos u)]

theorem Settings.Valid.inUnit (h : s.Valid) : (s.inUnit u).Valid where
  level := h.level
  limit := h.limit
  width := by
    intro width hw
    obtain ⟨w, hw', rfl⟩ := Option.map_eq_some_iff.mp hw
    rw [Exact.isPositive_iff]
    exact mul_pos (abs_scale_pos u) ((Exact.isPositive_iff w).mp (h.width w hw'))

theorem Settings.inUnit_inverse (s : Settings K) : (s.inUnit u).inUnit u.inverse = s := by
  have hscale : |u.inverse.scale| * |u.scale| = 1 := by
    rw [← abs_mul, UnitChange.inverse, inv_mul_cancel₀ u.scale_ne_zero, abs_one]
  obtain ⟨level, limit, method, width⟩ := s
  cases width with
  | none => rfl
  | some w => simp [Settings.inUnit, ← mul_assoc, hscale]

end Unit

namespace Series
variable {law : TailLaw ℝ} {xs : List ℝ} {s : Settings ℝ} {a : Analysis ℝ} {u : UnitChange ℝ}
  {q : ℕ} {t : ℝ}

theorem halfWidth_scale (c t v : ℝ) (h : ℕ) : halfWidth t (c ^ 2 * v) h = |c| * halfWidth t v h := by
  show t * Real.sqrt (c ^ 2 * v / h) = |c| * (t * Real.sqrt (v / h))
  rw [mul_div_assoc, Real.sqrt_mul (sq_nonneg c), Real.sqrt_sq_eq_abs, mul_left_comm]

/-- Neither does the number of blocks that a width asks for have a unit. -/
theorem blockBound_scale {c : ℝ} (hc : c ≠ 0) (t v w : ℝ) :
    blockBound t (c ^ 2 * v) (|c| * w / Arith.count 2) = blockBound t v (w / Arith.count 2) := by
  have hsq : c ^ 2 ≠ 0 := pow_ne_zero 2 hc
  rw [blockBound, blockBound, Exact.square_eq, Exact.square_eq, mul_div_assoc, div_pow, div_pow,
    mul_pow, sq_abs]
  field_simp

theorem Requires.inUnit {required : Option SampleSize} (h : Accepts xs s.method)
    (hu : u.Suits s.method) (hq : 1 ≤ q) (hreq : Requires xs s q t required) :
    Requires (xs.map u.reading) (s.inUnit u) q t required := by
  cases hreq with
  | nothing hw => exact .nothing (by rw [Settings.inUnit, hw]; rfl)
  | @blocks width count hw hcount =>
    have hwidth : (s.inUnit u).width = some (|u.scale| * width) := by
      rw [Settings.inUnit, hw]
      rfl
    have hbound : requiredBound (xs.map u.reading) (s.inUnit u) q t (|u.scale| * width) =
        requiredBound xs s q t width := by
      show blockBound t (spread (reduceBlocks (xs.map u.reading) q s.method)
        (s.method.reduce (xs.map u.reading))) _ = _
      rw [reduceBlocks_map hu hq, reduce_map hu h.nonempty, spread_map,
        blockBound_scale u.scale_ne_zero]
      rfl
    exact .blocks hwidth (hbound.symm ▸ hcount)

theorem blockPart_inUnit (required : Option SampleSize) (h : Accepts xs s.method)
    (hu : u.Suits s.method) (hq : 2 ≤ xs.length / q) :
    blockPart (xs.map u.reading) (s.inUnit u) q t required =
      (blockPart xs s q t required).inUnit u := by
  have hone := (two_le_div_iff.mp hq).1
  have hne : reduceBlocks xs q s.method ≠ [] :=
    List.ne_nil_of_length_pos (by rw [length_reduceBlocks]; omega)
  have hmethod : (s.inUnit u).method = s.method := rfl
  have hlevel : (s.inUnit u).level = s.level := rfl
  rw [blockPart, blockPart, BlockAnalysis.inUnit, hmethod, hlevel, reduce_map hu h.nonempty,
    reduceBlocks_map hu hone, spread_reduce_map u hne, spread_map, List.length_map,
    halfWidth_scale, (blockAutocorrelation_map h hu hq _).1]

/-- What comes out in the old unit comes out, taken to the new unit, in the new one. -/
theorem Analyzed.inUnit (h : Accepts xs s.method) (hu : u.Suits s.method)
    (ha : Analyzed law xs s a) : Analyzed law (xs.map u.reading) (s.inUnit u) (a.inUnit u) := by
  have hlen : (xs.map u.reading).length = xs.length := List.length_map _
  have hnone : Analysis.mk (xs.map u.reading).length (s.method.reduce (xs.map u.reading)) none =
      Analysis.inUnit u ⟨xs.length, s.method.reduce xs, none⟩ := by
    rw [hlen, reduce_map hu h.nonempty]
    rfl
  have hqualifies : ∀ q, Qualifies (xs.map u.reading) (s.method.reduce (xs.map u.reading))
      s.method s.limit q ↔ Qualifies xs (s.method.reduce xs) s.method s.limit q :=
    fun q => qualifies_map_iff h hu s.limit
  cases ha with
  | single hn => exact hnone ▸ Analyzed.single (s := s.inUnit u) (hlen.trans_lt hn)
  | unsized hn hc hsize =>
    exact hnone ▸ Analyzed.unsized (s := s.inUnit u) (hlen ▸ hn) rfl fun q =>
      mt (hqualifies q).mp (hsize q)
  | @sized q t required hn hc hleast ht hreq =>
    have hdiv := hleast.1.two_le_div
    have hsized : Analysis.mk (xs.map u.reading).length (s.method.reduce (xs.map u.reading))
        (some (blockPart (xs.map u.reading) (s.inUnit u) q t required)) =
        Analysis.inUnit u ⟨xs.length, s.method.reduce xs, some (blockPart xs s q t required)⟩ := by
      rw [hlen, reduce_map hu h.nonempty, blockPart_inUnit required h hu hdiv]
      rfl
    have hset : {q | Qualifies (xs.map u.reading) (s.method.reduce (xs.map u.reading))
        s.method s.limit q} = {q | Qualifies xs (s.method.reduce xs) s.method s.limit q} :=
      Set.ext hqualifies
    have hleast' := hset.symm ▸ hleast
    exact hsized ▸ Analyzed.sized (s := s.inUnit u) (hlen ▸ hn) rfl hleast' (hlen ▸ ht)
      (hreq.inUnit h hu (two_le_div_iff.mp hdiv).1)

theorem analyze_eq_ok_inUnit (hu : u.Suits s.method) (ha : analyze law xs s = .ok a) :
    analyze law (xs.map u.reading) (s.inUnit u) = .ok (a.inUnit u) := by
  obtain ⟨hv, h, ha⟩ := analyze_eq_ok_iff.mp ha
  exact analyze_eq_ok_iff.mpr ⟨hv.inUnit u, h.map hu, ha.inUnit h hu⟩

/-- **An analysis does not depend on the unit of measurement.** The readings in another unit are
    analyzed exactly when the readings are, with the width in that unit, and then the analysis is
    the same one in that unit; a width is met in both units or in neither. A harmonic mean lacks
    a divisor in both or in neither, so this does not rest on what a quotient by zero is. -/
theorem analyze_inUnit (law : TailLaw ℝ) (xs : List ℝ) (s : Settings ℝ) (u : UnitChange ℝ)
    (hu : u.Suits s.method) :
    (analyze law (xs.map u.reading) (s.inUnit u)).toOption =
      (analyze law xs s).toOption.map (Analysis.inUnit u) ∧
    (∀ (a : Analysis ℝ) (width : ℝ),
      (a.inUnit u).meetsWidth (|u.scale| * width) = a.meetsWidth width) ∧
    (s.method = .harmonic → ∀ ys : List ℝ,
      Arith.sumBy MeanMethod.harmonic.term (ys.map u.reading) = 0 ↔
        Arith.sumBy MeanMethod.harmonic.term ys = 0) := by
  refine ⟨?_, Analysis.meetsWidth_inUnit u, fun hm => sumBy_reciprocals_map_eq_zero_iff (hu hm)⟩
  cases hold : analyze law xs s with
  | ok a => rw [analyze_eq_ok_inUnit hu hold]; rfl
  | error e =>
    cases hnew : analyze law (xs.map u.reading) (s.inUnit u) with
    | error e' => rfl
    | ok a =>
      -- Taken back to the old unit, an analysis in the new one would be one of the readings.
      have hback := analyze_eq_ok_inUnit (s := s.inUnit u) hu.inverse hnew
      rw [UnitChange.map_inverse_reading, Settings.inUnit_inverse, hold] at hback
      cases hback

/-- From seconds to the milliseconds that are left of one second. -/
noncomputable def countdown : UnitChange ℝ := ⟨-1000, 1000, by norm_num⟩

/-- From a rate to a thousandth of it. -/
noncomputable def perMille : UnitChange ℝ := ⟨1000, 0, by norm_num⟩

/-- Two readings in seconds, and the same counted down in milliseconds: one block size and one
    sample size for both. A rate may be scaled, as its zero is not moved. -/
theorem analyze_inUnit_two :
    (∃ a, analyze cauchyLaw [1000, 0] (evenSettings.inUnit countdown) = .ok a ∧
      a.blockSize = some 1 ∧ a.required = some ⟨1, 2, 2⟩) ∧
    (perMille.Suits .harmonic ∧
      (analyze cauchyLaw [1000, 2000] ⟨1 / 2, 4 / 5, .harmonic, some 1000⟩).toOption =
        (analyze cauchyLaw [1, 2] ⟨1 / 2, 4 / 5, .harmonic, some 1⟩).toOption.map
          (Analysis.inUnit perMille)) := by
  have hrate : perMille.Suits .harmonic := fun _ => rfl
  refine ⟨?_, hrate, ?_⟩
  · obtain ⟨a, ha, _, hq, hr⟩ := analyze_two
    have h := (analyze_inUnit cauchyLaw [0, 1] evenSettings countdown fun h => (nomatch h)).1
    have hreadings : [0, 1].map countdown.reading = [1000, 0] := by
      norm_num [UnitChange.reading, countdown]
    rw [ha, hreadings] at h
    cases hnew : analyze cauchyLaw [1000, 0] (evenSettings.inUnit countdown) with
    | error e => rw [hnew] at h; cases h
    | ok a' =>
      rw [hnew] at h
      obtain rfl : a' = a.inUnit countdown := Option.some.inj h
      obtain ⟨_, _, blocks⟩ := a
      cases blocks with
      | none => cases hq
      | some b => exact ⟨_, rfl, hq, hr⟩
  · have h := (analyze_inUnit cauchyLaw [1, 2] ⟨1 / 2, 4 / 5, .harmonic, some 1⟩ perMille hrate).1
    norm_num [UnitChange.reading, perMille, Settings.inUnit] at h ⊢
    exact h

end Series
end BatchMeans
