import BatchMeans.Proofs.Series.Acceptance
import BatchMeans.Proofs.Series.Cutting
import BatchMeans.StudentT.Double

/- Only complete blocks count, and what they give stays as it is.

   A block mean is made from the readings of its block, in their order, and from
   nothing else (`getElem?_reduceBlocks`). Hence more readings add block means
   and change none (`prefix_reduceBlocks`), and the readings that fill no block
   may be any others (`reduceBlocks_withTail`). An interval looks at the series
   through its block means and their number, apart from the mean that the sample
   anchor names, so its width does not see those readings either. The numbers may
   be those of any arithmetic: equal operands are all that is used. -/
namespace BatchMeans.Series

section Means
variable {α : Type} [Arith α] {xs ys tail : List α} {method : MeanMethod} {q i : Nat}

/-- The `i`-th block mean is the mean of the `q` readings from `i * q` on. -/
theorem getElem?_reduceBlocks (hi : i < xs.length / q) :
    (reduceBlocks xs q method)[i]? = some (method.reduce (xs.extract (i * q) ((i + 1) * q))) := by
  have hsize : (i + 1) * q - i * q = q := by rw [Nat.succ_mul, Nat.add_sub_cancel_left]
  rw [reduceBlocks, List.getElem?_map, blocks, getElem?_takeBlocks q _ i xs hi, Option.map_some,
    List.extract_eq_take_drop, hsize]

theorem prefix_reduceBlocks (h : xs <+: ys) : reduceBlocks xs q method <+: reduceBlocks ys q method :=
  (prefix_blocks h).map method.reduce

/-- The series with other readings in place of the last ones, which fill no block of `q`. -/
def withTail (xs : List α) (q : Nat) (tail : List α) : List α :=
  xs.take (xs.length - xs.length % q) ++ tail

omit [Arith α] in
theorem length_withTail (h : tail.length = xs.length % q) : (withTail xs q tail).length = xs.length := by
  have := Nat.mod_le xs.length q
  rw [withTail, List.length_append, List.length_take, h]
  omega

omit [Arith α] in
theorem blocks_withTail (h : tail.length = xs.length % q) : blocks q (withTail xs q tail) = blocks q xs := by
  have hwhole : xs.length - xs.length % q = xs.length / q * q := by
    have := Nat.div_add_mod' xs.length q
    omega
  have hbegin : (xs.take (xs.length / q * q)).length = xs.length / q * q :=
    List.length_take_of_le (Nat.div_mul_le_self _ _)
  have hlen := length_withTail h
  apply blocks_congr hlen
  rw [hlen, withTail, hwhole, List.take_left' hbegin]

theorem reduceBlocks_withTail (h : tail.length = xs.length % q) :
    reduceBlocks (withTail xs q tail) q method = reduceBlocks xs q method := by
  rw [reduceBlocks, blocks_withTail h, reduceBlocks]

end Means

variable {α : Type} [RootArith α] {xs means : List α} {method : MeanMethod} {q : Nat}

/-- **Block means are those of the complete blocks, and never change as a series grows**, in any
    arithmetic. There are as many as blocks fit, each the mean of its own readings in order; a longer
    series begins with them; and other readings in the place of those that fill no block change neither
    the block means, nor the interval around their mean, nor the width of the interval around the mean
    of the series. -/
theorem blockMeans_of_complete_blocks (h : blockMeans xs q method = .ok means) :
    means.length = xs.length / q ∧
    (∀ i, i < xs.length / q →
      means[i]? = some (method.reduce (xs.extract (i * q) ((i + 1) * q)))) ∧
    (∀ more, Accepts (xs ++ more) method →
      ∃ means', blockMeans (xs ++ more) q method = .ok means' ∧ means <+: means') ∧
    ∀ tail, tail.length = xs.length % q → Accepts (withTail xs q tail) method →
      blockMeans (withTail xs q tail) q method = .ok means ∧
      ∀ (law : TailLaw α) (level : α),
        confidenceInterval law (withTail xs q tail) q level method .blockMeans =
          confidenceInterval law xs q level method .blockMeans ∧
        (confidenceInterval law (withTail xs q tail) q level method .sample).map Interval.halfWidth =
          (confidenceInterval law xs q level method .sample).map Interval.halfWidth := by
  obtain ⟨haccepts, hq, hn, rfl⟩ := blockMeans_eq_ok_iff.mp h
  refine ⟨length_reduceBlocks xs q method, fun i hi => getElem?_reduceBlocks hi, ?_, ?_⟩
  · intro more hmore
    have hlonger : q ≤ (xs ++ more).length := by
      rw [List.length_append]
      exact Nat.le_add_right_of_le hn
    exact ⟨_, blockMeans_eq_ok hmore hq hlonger, prefix_reduceBlocks (List.prefix_append xs more)⟩
  · intro tail htail hother
    have hlen := length_withTail htail
    have hsize : q ≤ (withTail xs q tail).length := by rwa [hlen]
    have hmeans : reduceBlocks (withTail xs q tail) q method = reduceBlocks xs q method :=
      reduceBlocks_withTail htail
    refine ⟨by rw [blockMeans_eq_ok hother hq hsize, hmeans], fun law level => ⟨?_, ?_⟩⟩
    · rw [confidenceInterval_eq_blockInterval law hother hq hsize,
        confidenceInterval_eq_blockInterval law haccepts hq hn, hmeans, hlen]
      rfl
    · rw [confidenceInterval_eq_blockInterval law hother hq hsize,
        confidenceInterval_eq_blockInterval law haccepts hq hn, hmeans, hlen]
      exact halfWidth_blockInterval law _ _ q level _ _

/-- Five rates in double precision, in blocks of two: the fifth may be another one, and a sixth adds a
    block mean to the two that are there. -/
theorem blockMeans_of_complete_blocks_five :
    blockMeans [1.0, 1.0, 2.0, 2.0, (5.0 : Float)] 2 .harmonic = .ok [1.0, 2.0] ∧
    (∃ means, blockMeans [1.0, 1.0, 2.0, 2.0, 5.0, (7.0 : Float)] 2 .harmonic = .ok means ∧
      [1.0, 2.0] <+: means) ∧
    blockMeans [1.0, 1.0, 2.0, 2.0, (9.0 : Float)] 2 .harmonic = .ok [1.0, 2.0] ∧
    ∀ level, confidenceInterval StudentT.doubleLaw [1.0, 1.0, 2.0, 2.0, 9.0] 2 level .harmonic .blockMeans =
      confidenceInterval StudentT.doubleLaw [1.0, 1.0, 2.0, 2.0, 5.0] 2 level .harmonic .blockMeans := by
  have hrates : Accepts [1.0, 1.0, 2.0, 2.0, (5.0 : Float)] .harmonic :=
    ⟨by simp, by decide +kernel, by decide +kernel⟩
  have hlonger : Accepts ([1.0, 1.0, 2.0, 2.0, 5.0] ++ [(7.0 : Float)]) .harmonic :=
    ⟨by simp, by decide +kernel, by decide +kernel⟩
  have hother : Accepts (withTail [1.0, 1.0, 2.0, 2.0, 5.0] 2 [(9.0 : Float)]) .harmonic :=
    ⟨by simp [withTail], by decide +kernel, by decide +kernel⟩
  have hmeans : blockMeans [1.0, 1.0, 2.0, 2.0, (5.0 : Float)] 2 .harmonic = .ok [1.0, 2.0] :=
    blockMeans_eq_ok_iff.mpr ⟨hrates, by decide, by decide, by decide +kernel⟩
  obtain ⟨_, _, hextension, htail⟩ := blockMeans_of_complete_blocks hmeans
  obtain ⟨hsame, hinterval⟩ := htail [9.0] rfl hother
  exact ⟨hmeans, hextension _ hlonger, hsame, fun level => (hinterval StudentT.doubleLaw level).1⟩

end BatchMeans.Series
