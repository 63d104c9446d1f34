import BatchMeans.Proofs.Analysis.Decision
import BatchMeans.Proofs.Series.Grouping
import BatchMeans.Proofs.Series.MeanOrder

/- The two means that an interval may be centred on.

   The anchor is looked at last, for the point alone, so in any arithmetic both
   anchors are refused together or give one half width (`sameWidth_confidenceInterval`).
   Of exact readings that fill their blocks the mean is the mean of the block means
   by its own method (`points_eq`), whereas the anchor on the blocks takes
   their arithmetic mean. For arithmetic means the two points are therefore the same; for
   harmonic ones they are the two means of one list, the block means, and are ordered
   as those are (`harmonic_le_arithmetic`). -/
namespace BatchMeans.Series

section Points
variable {K : Type} [Field K] [LinearOrder K] [IsStrictOrderedRing K] [Exact.Roots K] {xs : List K}
  {law : TailLaw K} {method : MeanMethod} {q : ℕ} {level : K} {i j : Interval K}

/-- The points of the two intervals, from the block means alone. -/
theorem points_eq (hdvd : q ∣ xs.length)
    (hi : confidenceInterval law xs q level method .blockMeans = .ok i)
    (hj : confidenceInterval law xs q level method .sample = .ok j) :
    1 ≤ q ∧ q ≤ xs.length ∧ i.point = MeanMethod.arithmetic.reduce (reduceBlocks xs q method) ∧
      j.point = method.reduce (reduceBlocks xs q method) := by
  obtain ⟨_, _, hblocks, _, _, rfl⟩ := confidenceInterval_eq_ok_iff.mp hi
  obtain ⟨_, _, _, _, _, rfl⟩ := confidenceInterval_eq_ok_iff.mp hj
  have hq := (two_le_div_iff.mp hblocks).1
  exact ⟨hq, le_length_of_two_le_div hblocks, rfl, (reduce_reduceBlocks hq hdvd).symm⟩

/-- Arithmetic means of blocks have the arithmetic mean of the series for their own. -/
theorem points_eq_of_arithmetic (hdvd : q ∣ xs.length)
    (hi : confidenceInterval law xs q level .arithmetic .blockMeans = .ok i)
    (hj : confidenceInterval law xs q level .arithmetic .sample = .ok j) : i.point = j.point := by
  obtain ⟨_, _, hpoint, hpoint'⟩ := points_eq hdvd hi hj
  rw [hpoint, hpoint']

/-- Harmonic means of blocks are averaged by the other method than their readings. -/
theorem points_ordered_of_pos (hdvd : q ∣ xs.length) (hpos : ∀ x ∈ xs, 0 < x)
    (hi : confidenceInterval law xs q level .harmonic .blockMeans = .ok i)
    (hj : confidenceInterval law xs q level .harmonic .sample = .ok j) :
    ∃ means, blockMeans xs q .harmonic = .ok means ∧ j.point ≤ i.point ∧
      (i.point = j.point ↔ Coincide means) := by
  obtain ⟨hq, hn, hpoint, hpoint'⟩ := points_eq hdvd hi hj
  have hne : xs ≠ [] := List.ne_nil_of_length_pos (by omega)
  have h : Groupable xs .harmonic := ⟨hne, fun _ => hpos⟩
  have hmeans := h.reduceBlocks hq hn
  refine ⟨_, blockMeans_eq_ok h.accepts hq hn, ?_, ?_⟩
  · rw [hpoint, hpoint']
    exact harmonic_le_arithmetic hmeans.nonempty (hmeans.pos rfl)
  · rw [hpoint, hpoint', eq_comm]
    exact harmonic_eq_arithmetic_iff hmeans.nonempty (hmeans.pos rfl)

end Points

/-- **The two anchors are ordered as the means are.** In any arithmetic both intervals are refused alike or
    have one half width and level, and are given under the same conditions. Of exact readings that leave
    none over the points are equal for arithmetic means; for harmonic means of positive readings the point
    on the blocks is at least that on the sample, and equal to it only when all block means are. -/
theorem anchors_ordered :
    (∀ (α : Type) [RootArith α] (law : TailLaw α) (xs : List α) (q : ℕ) (level : α) (method : MeanMethod),
      SameWidth (confidenceInterval law xs q level method .blockMeans)
        (confidenceInterval law xs q level method .sample) ∧
      ∀ anchor, (∃ i, confidenceInterval law xs q level method anchor = .ok i) ↔
        (0 < level ∧ level < 1) ∧ Accepts xs method ∧ 2 ≤ xs.length / q) ∧
    ∀ (K : Type) [Field K] [LinearOrder K] [IsStrictOrderedRing K] [Exact.Roots K] (law : TailLaw K)
      (xs : List K) (q : ℕ) (level : K), q ∣ xs.length →
      (∀ i j, confidenceInterval law xs q level .arithmetic .blockMeans = .ok i →
        confidenceInterval law xs q level .arithmetic .sample = .ok j → i.point = j.point) ∧
      ∀ i j, confidenceInterval law xs q level .harmonic .blockMeans = .ok i →
        confidenceInterval law xs q level .harmonic .sample = .ok j → (∀ x ∈ xs, 0 < x) →
        ∃ means, blockMeans xs q .harmonic = .ok means ∧
          j.point ≤ i.point ∧ (i.point = j.point ↔ Coincide means) := by
  constructor
  · intro α _ law xs q level method
    exact ⟨sameWidth_confidenceInterval law xs q level method _ _,
      fun anchor => exists_confidenceInterval_iff⟩
  · intro K _ _ _ _ law xs q level hdvd
    constructor
    · intro i j hi hj
      exact points_eq_of_arithmetic hdvd hi hj
    · intro i j hi hj hpos
      exact points_ordered_of_pos hdvd hpos hi hj

/-- Four rates in blocks of two, at a level of one half: the interval on the blocks has its point above the
    one on the sample, and is as wide. -/
theorem anchors_ordered_four :
    ∃ i j, confidenceInterval cauchyLaw [1, 3, 2, (2 : ℝ)] 2 (1 / 2) .harmonic .blockMeans = .ok i ∧
      confidenceInterval cauchyLaw [1, 3, 2, (2 : ℝ)] 2 (1 / 2) .harmonic .sample = .ok j ∧
      i.halfWidth = j.halfWidth ∧ j.point < i.point := by
  have hpos : ∀ x ∈ [1, 3, 2, (2 : ℝ)], 0 < x := by simp
  have haccepts : Accepts [1, 3, 2, (2 : ℝ)] .harmonic := accepts_of_pos .harmonic (by simp) hpos
  have hmeans : reduceBlocks [1, 3, 2, (2 : ℝ)] 2 .harmonic = [3 / 2, 2] := by
    norm_num [reduceBlocks, blocks, takeBlocks, reduce_harmonic]
  obtain ⟨hwidth, hgiven⟩ := anchors_ordered.1 ℝ cauchyLaw [1, 3, 2, 2] 2 (1 / 2) .harmonic
  obtain ⟨i, hi⟩ := (hgiven .blockMeans).mpr ⟨by norm_num, haccepts, by simp⟩
  obtain ⟨j, hj⟩ := (hgiven .sample).mpr ⟨by norm_num, haccepts, by simp⟩
  let roots : Exact.Roots ℝ := ⟨Real.sqrt, fun x => some ⌈x⌉₊⟩
  obtain ⟨_, hordered⟩ := anchors_ordered.2 ℝ cauchyLaw [1, 3, 2, 2] 2 (1 / 2) (by decide)
  obtain ⟨means, hblocks, hle, heq⟩ := hordered i j hi hj hpos
  obtain rfl : means = [3 / 2, 2] := by
    obtain ⟨_, _, _, rfl⟩ := blockMeans_eq_ok_iff.mp hblocks
    exact hmeans
  have hdiffer : i.point ≠ j.point := by
    rw [ne_eq, heq]
    intro h
    have := h (3 / 2) (by simp) 2 (by simp)
    norm_num at this
  rw [hi, hj] at hwidth
  cases hwidth
  exact ⟨_, _, hi, hj, rfl, lt_of_le_of_ne hle hdiffer.symm⟩

end BatchMeans.Series
