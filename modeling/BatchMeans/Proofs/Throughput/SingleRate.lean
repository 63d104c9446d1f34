import Mathlib.Tactic.NormNum
import BatchMeans.Proofs.Throughput.ExactModel
import BatchMeans.Proofs.Throughput.ScoreBatches

/- A single rate as a model without overhead.

   A score computes the errors of its naive rate on their own, without making a
   model of that rate. Without rounding they are the errors of the model whose
   overhead is zero (`naiveError_scoreOf`), because that model predicts the same
   duration for every work (`duration_naive`). A model with overhead predicts that
   much more for each round than its rate alone, and a distance moves by no more
   than its end does, so the two error sums are at most the overhead apart
   for each round (`abs_sub_naiveError_le`). -/
namespace BatchMeans.Throughput
variable {K : Type} [Field K] [LinearOrder K] [IsStrictOrderedRing K]
variable {rs : List (Round K)} {m : RateModel K} {v w : K} {s : Score K}

/-! ## The model of a rate -/

theorem valid_naive (hrate : Arith.IsPositive v) : (⟨0, v⟩ : RateModel K).Valid :=
  ⟨⟨le_refl 0, rfl⟩, hrate⟩

theorem naive_eq_ok (hrate : Arith.IsPositive v) : RateModel.naive v = .ok ⟨0, v⟩ :=
  RateModel.ofParts_eq_ok (valid_naive hrate)

theorem duration_naive (v : K) : (⟨0, v⟩ : RateModel K).duration = fun work => work / v := by
  funext work
  exact zero_add (work / v)

/-- The errors of a naive rate are those of its model, whatever rate that model is held against. -/
theorem naiveError_scoreOf (rs : List (Round K)) (m : RateModel K) (v w : K) :
    (Round.scoreOf rs m v).naiveError = (Round.scoreOf rs ⟨0, v⟩ w).modelError := by
  simp only [Round.scoreOf, duration_naive]

/-! ## What overhead changes -/

theorem duration_sub_naive (m : RateModel K) (work : K) :
    m.duration work - work / m.rate = m.overhead := add_sub_cancel_right m.overhead (work / m.rate)

/-- One round: the two distances differ by no more than the two predictions. -/
theorem abs_error_sub_le (hm : m.Valid) (r : Round K) :
    |(|m.duration r.work - r.duration| - |r.work / m.rate - r.duration|)| ≤ m.overhead :=
  calc |(|m.duration r.work - r.duration| - |r.work / m.rate - r.duration|)|
      ≤ |m.duration r.work - r.duration - (r.work / m.rate - r.duration)| :=
        abs_abs_sub_abs_le_abs_sub _ _
    _ = |m.overhead| := by rw [sub_sub_sub_cancel_right, duration_sub_naive]
    _ = m.overhead := abs_of_nonneg hm.overhead.1

/-- All rounds: each adds no more than the overhead. -/
theorem abs_sub_naiveError_le (hm : m.Valid) (rs : List (Round K)) :
    |(Round.scoreOf rs m m.rate).modelError.sum - (Round.scoreOf rs m m.rate).naiveError.sum| ≤
      rs.length * m.overhead := by
  simp only [Round.scoreOf, ErrorTotal.ofSum, Round.absoluteError, Exact.sumBy_eq_sum]
  exact Exact.abs_sum_map_sub_le fun r _ => abs_error_sub_le hm r

/-- Without overhead the model and its rate make the same errors. -/
theorem modelError_eq_naiveError (rs : List (Round K)) (hzero : m.overhead = 0) :
    (Round.scoreOf rs m m.rate).modelError = (Round.scoreOf rs m m.rate).naiveError := by
  have hm : m = ⟨0, m.rate⟩ := by rw [← hzero]
  rw [naiveError_scoreOf rs m m.rate m.rate, ← hm]

theorem improves_eq_false (h : s.modelError = s.naiveError) : s.improves = false := by
  rw [Score.improves, h]
  exact decide_eq_false (lt_irrefl _)

/-! ## When there is no error -/

theorem modelError_eq_zero_iff (hs : Round.scoreAgainst rs m v = .ok s) :
    s.modelError.sum = 0 ↔ ∀ r ∈ rs, m.duration r.work = r.duration := by
  obtain ⟨_, _, _, rfl⟩ := Round.scoreAgainst_eq_ok_iff.mp hs
  exact absoluteError_eq_zero_iff m.duration rs

theorem naiveError_eq_zero_iff (hs : Round.scoreAgainst rs m v = .ok s) :
    s.naiveError.sum = 0 ↔ ∀ r ∈ rs, r.work / v = r.duration := by
  obtain ⟨_, _, _, rfl⟩ := Round.scoreAgainst_eq_ok_iff.mp hs
  exact absoluteError_eq_zero_iff (fun work => work / v) rs

/-- **A naive rate is scored as its own model, and overhead moves an error sum by itself for each round at
    most.** For valid rounds, a valid model and two valid rates `v` and `w`: the naive errors of the model
    against `v` are the errors of the model of `v` against `w`. Against its own rate a model's error sum
    differs from the naive one by at most its overhead for each round, so without overhead both errors
    are the same and the model is no better. In every score a sum is zero exactly when all rounds take as
    long as predicted. -/
theorem naive_errors (hne : rs ≠ []) (hv : ∀ r ∈ rs, r.Valid) (hm : m.Valid)
    (hrate : Arith.IsPositive v) (hrate' : Arith.IsPositive w) :
    (∃ n s s', RateModel.naive v = .ok n ∧ Round.scoreAgainst rs m v = .ok s ∧
      Round.scoreAgainst rs n w = .ok s' ∧ s.naiveError = s'.modelError) ∧
    (∃ s, Round.scoreAgainst rs m m.rate = .ok s ∧
      |s.modelError.sum - s.naiveError.sum| ≤ s.rounds * m.overhead ∧
      (m.overhead = 0 → s.modelError = s.naiveError ∧ s.improves = false)) ∧
    (∃ s, Round.scoreAgainst rs m v = .ok s ∧
      (s.modelError.sum = 0 ↔ ∀ r ∈ rs, m.duration r.work = r.duration) ∧
      (s.naiveError.sum = 0 ↔ ∀ r ∈ rs, r.work / v = r.duration)) ∧
    ∃ s, Round.score rs m = .ok s ∧
      (s.modelError.sum = 0 ↔ ∀ r ∈ rs, m.duration r.work = r.duration) := by
  have hscore := Round.scoreAgainst_eq_ok hne hv hm hrate
  have hown := Round.scoreAgainst_eq_ok hne hv hm hm.rate
  have hnaive := Round.scoreAgainst_eq_ok hne hv (valid_naive hrate) hrate'
  obtain ⟨s, hs⟩ := (exists_score_iff hm).mpr ⟨hne, hv⟩
  refine ⟨⟨_, _, _, naive_eq_ok hrate, hscore, hnaive, naiveError_scoreOf rs m v w⟩,
    ⟨_, hown, abs_sub_naiveError_le hm rs, ?_⟩,
    ⟨_, hscore, modelError_eq_zero_iff hscore, naiveError_eq_zero_iff hscore⟩,
    ⟨s, hs, modelError_eq_zero_iff (score_eq_ok_iff.mp hs)⟩⟩
  intro hzero
  have herrors := modelError_eq_naiveError rs hzero
  exact ⟨herrors, improves_eq_false herrors⟩

/-- Two rounds that take one nanosecond more than their work. -/
def lateRounds : List (Round ℚ) := [⟨2, 3⟩, ⟨4, 5⟩]

/-- The model with that overhead makes no error, its rate alone is one off on each round, which is as far
    apart as the two sums can be. The rate as a model is no better than itself. -/
theorem naive_errors_late :
    ∃ s s' : Score ℚ, Round.scoreAgainst lateRounds ⟨1, 1⟩ 1 = .ok s ∧ s.modelError.sum = 0 ∧
      |s.modelError.sum - s.naiveError.sum| ≤ s.rounds * 1 ∧ s.naiveError.sum = 2 ∧
      Round.scoreAgainst lateRounds ⟨0, 1⟩ 1 = .ok s' ∧ s'.improves = false := by
  have hne : lateRounds ≠ [] := List.cons_ne_nil _ _
  have hvalid : ∀ r ∈ lateRounds, r.Valid := by simp [lateRounds, Round.valid_iff]
  have hone : Arith.IsPositive (1 : ℚ) := (Exact.isPositive_iff 1).mpr one_pos
  have hmodel : (⟨1, 1⟩ : RateModel ℚ).Valid := ⟨⟨zero_le_one, rfl⟩, hone⟩
  obtain ⟨-, ⟨s, hs, hbound, -⟩, ⟨t, ht, hzero, -⟩, -⟩ := naive_errors hne hvalid hmodel hone hone
  obtain ⟨-, ⟨s', hs', -, hnaive⟩, -, -⟩ := naive_errors hne hvalid (valid_naive hone) hone hone
  obtain rfl : s = t := Except.ok.inj (hs.symm.trans ht)
  have hexact : ∀ r ∈ lateRounds, (⟨1, 1⟩ : RateModel ℚ).duration r.work = r.duration := by
    norm_num [lateRounds, RateModel.duration]
  have hsum : s.naiveError.sum = 2 := by
    obtain ⟨-, -, -, rfl⟩ := Round.scoreAgainst_eq_ok_iff.mp hs
    norm_num [Round.scoreOf, ErrorTotal.ofSum, Round.absoluteError, Exact.sumBy_eq_sum, lateRounds]
  exact ⟨s, s', hs, hzero.mpr hexact, hbound, hsum, hs', (hnaive rfl).2⟩

end BatchMeans.Throughput
