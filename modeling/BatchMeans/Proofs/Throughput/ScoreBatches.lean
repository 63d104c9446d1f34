import Mathlib.Tactic.NormNum
import BatchMeans.Proofs.Throughput.BlockFit

/- Scores of reordered rounds, and of batches of rounds put together.

   A score is made of a count and of sums over the rounds: work, duration and
   the two kinds of error. Without rounding such a sum depends neither on the
   order of the rounds (`Round.scoreOf_perm`) nor on how they are grouped, and
   the harmonic mean of the rates, against which a model is scored when no other
   rate is given, is one more sum of this kind. What a score divides by is the
   duration of all its rounds. A ratio of two batches together is therefore a sum
   of two numerators over a sum of two positive divisors, and so lies between the
   ratios of the batches (`Exact.add_div_add_mem_uIcc`). -/
namespace BatchMeans.Throughput
open Series
variable {K : Type} [Field K] [LinearOrder K] [IsStrictOrderedRing K]
variable {rs rs' as bs : List (Round K)} {m : RateModel K} {v : K} {s : Score K}

/-! ## Which scores are given -/

/-- A model is scored against the harmonic mean of the rates, whatever the rounds are. -/
theorem score_eq_ok_iff : Round.score rs m = .ok s ↔
    Round.scoreAgainst rs m (MeanMethod.harmonic.reduce (rs.map Round.rate)) = .ok s := by
  constructor
  · intro h
    obtain ⟨_, _, h⟩ := bind_eq_ok_iff.mp h
    obtain ⟨naiveRate, hmean, h⟩ := bind_eq_ok_iff.mp h
    rw [(mean_eq_ok_iff.mp hmean).2]
    exact h
  · intro h
    obtain ⟨⟨hne, hv⟩, hm, hrate, rfl⟩ := Round.scoreAgainst_eq_ok_iff.mp h
    exact Round.score_eq_scoreOf hne hv hm (mean_eq_ok (accepts_rates hne hv)) hrate

theorem exists_scoreAgainst_iff (hm : m.Valid) (hrate : Arith.IsPositive v) :
    (∃ s, Round.scoreAgainst rs m v = .ok s) ↔ rs ≠ [] ∧ ∀ r ∈ rs, r.Valid := by
  constructor
  · intro h
    obtain ⟨s, hs⟩ := h
    exact (Round.scoreAgainst_eq_ok_iff.mp hs).1
  · intro h
    exact ⟨_, Round.scoreAgainst_eq_ok h.1 h.2 hm hrate⟩

/-- The rates of valid rounds have a positive harmonic mean, so no naive rate has to be given. -/
theorem exists_score_iff (hm : m.Valid) :
    (∃ s, Round.score rs m = .ok s) ↔ rs ≠ [] ∧ ∀ r ∈ rs, r.Valid := by
  simp only [score_eq_ok_iff]
  constructor
  · intro h
    obtain ⟨s, hs⟩ := h
    exact (Round.scoreAgainst_eq_ok_iff.mp hs).1
  · intro h
    have hrates : rs.map Round.rate ≠ [] := by simpa using h.1
    have hpos := reduce_harmonic_pos hrates (rates_pos h.2)
    exact ⟨_, Round.scoreAgainst_eq_ok h.1 h.2 hm ((Exact.isPositive_iff _).mpr hpos)⟩

/-! ## The order of the rounds -/

theorem Round.scoreOf_perm (h : rs.Perm rs') : Round.scoreOf rs m v = Round.scoreOf rs' m v := by
  simp only [Round.scoreOf, Round.absoluteError, Exact.sumBy_perm _ h, h.length_eq]

theorem scoreAgainst_of_perm (h : rs.Perm rs') (hs : Round.scoreAgainst rs m v = .ok s) :
    Round.scoreAgainst rs' m v = .ok s := by
  obtain ⟨⟨hne, hv⟩, hm, hrate, rfl⟩ := Round.scoreAgainst_eq_ok_iff.mp hs
  have hne' : rs' ≠ [] := fun hnil => hne (List.perm_nil.mp (hnil ▸ h))
  rw [Round.scoreOf_perm h]
  exact Round.scoreAgainst_eq_ok hne' (fun r hr => hv r (h.mem_iff.mpr hr)) hm hrate

theorem scoreAgainst_perm (h : rs.Perm rs') :
    Round.scoreAgainst rs m v = .ok s ↔ Round.scoreAgainst rs' m v = .ok s :=
  ⟨scoreAgainst_of_perm h, scoreAgainst_of_perm h.symm⟩

theorem score_perm (h : rs.Perm rs') : Round.score rs m = .ok s ↔ Round.score rs' m = .ok s := by
  rw [score_eq_ok_iff, score_eq_ok_iff, reduce_perm .harmonic (h.map Round.rate), scoreAgainst_perm h]

/-! ## Two batches -/

/-- The score `s` of two batches together, beside their own scores `a` and `b`: counts and sums add
    up, and ratios lie between those of the batches. -/
structure Score.Pools (s a b : Score K) : Prop where
  rounds : s.rounds = a.rounds + b.rounds
  totalWork : s.totalWork = a.totalWork + b.totalWork
  totalDuration : s.totalDuration = a.totalDuration + b.totalDuration
  modelError : s.modelError.sum = a.modelError.sum + b.modelError.sum
  naiveError : s.naiveError.sum = a.naiveError.sum + b.naiveError.sum
  meanRate : s.meanRate ∈ Set.uIcc a.meanRate b.meanRate
  modelPercent : s.modelError.percent ∈ Set.uIcc a.modelError.percent b.modelError.percent
  naivePercent : s.naiveError.percent ∈ Set.uIcc a.naiveError.percent b.naiveError.percent

theorem totalDuration_pos (hne : rs ≠ []) (hv : ∀ r ∈ rs, r.Valid) :
    0 < Arith.sumBy Round.duration rs := by
  rw [Exact.sumBy_eq_sum]
  exact Exact.sum_map_pos hne fun r hr => (Round.valid_iff.mp (hv r hr)).2

/-- The percentage of two error sums together. -/
theorem percent_ofSum_add {x y d e : K} (hd : 0 < d) (he : 0 < e) :
    (ErrorTotal.ofSum (x + y) (d + e)).percent ∈
      Set.uIcc (ErrorTotal.ofSum x d).percent (ErrorTotal.ofSum y e).percent := by
  simp only [ErrorTotal.ofSum, add_mul]
  exact Exact.add_div_add_mem_uIcc hd he

theorem scoreOf_append (hne : as ≠ []) (hne' : bs ≠ []) (hv : ∀ r ∈ as, r.Valid)
    (hv' : ∀ r ∈ bs, r.Valid) :
    (Round.scoreOf (as ++ bs) m v).Pools (Round.scoreOf as m v) (Round.scoreOf bs m v) where
  rounds := List.length_append
  totalWork := Exact.sumBy_append _ as bs
  totalDuration := Exact.sumBy_append _ as bs
  modelError := Exact.sumBy_append _ as bs
  naiveError := Exact.sumBy_append _ as bs
  meanRate := by
    simp only [Round.scoreOf, Exact.sumBy_append]
    exact Exact.add_div_add_mem_uIcc (totalDuration_pos hne hv) (totalDuration_pos hne' hv')
  modelPercent := by
    simp only [Round.scoreOf, Round.absoluteError, Exact.sumBy_append]
    exact percent_ofSum_add (totalDuration_pos hne hv) (totalDuration_pos hne' hv')
  naivePercent := by
    simp only [Round.scoreOf, Round.absoluteError, Exact.sumBy_append]
    exact percent_ofSum_add (totalDuration_pos hne hv) (totalDuration_pos hne' hv')

/-- **Scores do not depend on the order of the rounds, and batches add up.** A valid model is scored
    on all lists of valid rounds but the empty one. The rounds in another order have the
    same score, against a given rate and against the harmonic mean, or have none either. The score of
    two batches together has the sums of both, and its percentages and its mean rate lie between
    theirs. -/
theorem score_of_batches (hm : m.Valid) (hrate : Arith.IsPositive v) :
    (∀ rs : List (Round K),
      ((∃ s, Round.scoreAgainst rs m v = .ok s) ↔ rs ≠ [] ∧ ∀ r ∈ rs, r.Valid) ∧
      ((∃ s, Round.score rs m = .ok s) ↔ rs ≠ [] ∧ ∀ r ∈ rs, r.Valid)) ∧
    (∀ rs rs' : List (Round K), rs.Perm rs' → ∀ s,
      (Round.scoreAgainst rs m v = .ok s ↔ Round.scoreAgainst rs' m v = .ok s) ∧
      (Round.score rs m = .ok s ↔ Round.score rs' m = .ok s)) ∧
    ∀ as bs : List (Round K), as ≠ [] → bs ≠ [] → (∀ r ∈ as, r.Valid) → (∀ r ∈ bs, r.Valid) →
      ∃ sa sb s, Round.scoreAgainst as m v = .ok sa ∧ Round.scoreAgainst bs m v = .ok sb ∧
        Round.scoreAgainst (as ++ bs) m v = .ok s ∧ s.Pools sa sb := by
  refine ⟨fun rs => ⟨exists_scoreAgainst_iff hm hrate, exists_score_iff hm⟩,
    fun rs rs' h s => ⟨scoreAgainst_perm h, score_perm h⟩, ?_⟩
  intro as bs hne hne' hv hv'
  have hall : ∀ r ∈ as ++ bs, r.Valid := List.forall_mem_append.mpr ⟨hv, hv'⟩
  exact ⟨_, _, _, Round.scoreAgainst_eq_ok hne hv hm hrate, Round.scoreAgainst_eq_ok hne' hv' hm hrate,
    Round.scoreAgainst_eq_ok (List.append_ne_nil_of_left_ne_nil hne bs) hall hm hrate,
    scoreOf_append hne hne' hv hv'⟩

/-- Two batches of one round each, in both orders: the model is two off on the first round and one off
    on the second. -/
theorem score_of_batches_two :
    ∃ sa sb s : Score ℚ, Round.scoreAgainst [⟨2, 5⟩] ⟨1, 1⟩ 1 = .ok sa ∧
      Round.scoreAgainst [⟨4, 4⟩] ⟨1, 1⟩ 1 = .ok sb ∧
      Round.scoreAgainst [⟨2, 5⟩, ⟨4, 4⟩] ⟨1, 1⟩ 1 = .ok s ∧
      Round.scoreAgainst [⟨4, 4⟩, ⟨2, 5⟩] ⟨1, 1⟩ 1 = .ok s ∧ s.Pools sa sb ∧
      s.modelError.sum = 3 ∧ s.meanRate = 2 / 3 := by
  have hm : (⟨1, 1⟩ : RateModel ℚ).Valid :=
    ⟨⟨zero_le_one, rfl⟩, (Exact.isPositive_iff 1).mpr one_pos⟩
  have hrate : Arith.IsPositive (1 : ℚ) := (Exact.isPositive_iff 1).mpr one_pos
  have hvalid : ∀ r ∈ [(⟨2, 5⟩ : Round ℚ)], r.Valid := by simp [Round.valid_iff]
  have hvalid' : ∀ r ∈ [(⟨4, 4⟩ : Round ℚ)], r.Valid := by simp [Round.valid_iff]
  obtain ⟨-, hperm, hbatches⟩ := score_of_batches hm hrate
  obtain ⟨sa, sb, s, ha, hb, hs, hpools⟩ :=
    hbatches _ _ (List.cons_ne_nil _ _) (List.cons_ne_nil _ _) hvalid hvalid'
  have hswap : [(⟨2, 5⟩ : Round ℚ), ⟨4, 4⟩].Perm [⟨4, 4⟩, ⟨2, 5⟩] := .swap _ _ _
  have hs' := (hperm _ _ hswap s).1.mp hs
  obtain ⟨-, -, -, hscore⟩ := Round.scoreAgainst_eq_ok_iff.mp hs
  refine ⟨sa, sb, s, ha, hb, hs, hs', hpools, ?_, ?_⟩
  · rw [← hscore]
    norm_num [Round.scoreOf, Round.absoluteError, ErrorTotal.ofSum, Exact.sumBy_eq_sum,
      RateModel.duration]
  · rw [← hscore]
    norm_num [Round.scoreOf, Exact.sumBy_eq_sum]

end BatchMeans.Throughput
