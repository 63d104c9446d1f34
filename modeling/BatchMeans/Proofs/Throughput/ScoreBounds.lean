import BatchMeans.Proofs.Arith.DoubleSigns
import BatchMeans.Proofs.Series.MeanOrder
import BatchMeans.Proofs.Table.RoundRows
import BatchMeans.Proofs.Throughput.ExactModel

/- Valid rounds are scored by every valid model.

   The rates of valid rounds are positive, so their harmonic mean exists and is
   positive, which is all that a score asks for beyond the checks of the rounds
   and of the model. Both single rates of a score are quotients of sums over the
   rounds: the harmonic mean divides ones by reciprocals of rates, the mean rate
   divides work by duration. Such a quotient lies between the least and the
   greatest of the quotients of its terms, which are the rates. A fit checks all
   rounds, the ones that it leaves out included, and its model is checked when it
   is made, so rounds that are read and fitted are scored by that model, in full
   and against its own rate. -/
namespace BatchMeans.Throughput
open Series

section Score
variable {rs : List (Round ℝ)} {m : RateModel ℝ} {bound : ℝ}

/-- All work over the whole duration. -/
noncomputable def meanRate (rs : List (Round ℝ)) : ℝ :=
  (rs.map Round.work).sum / (rs.map Round.duration).sum

theorem duration_pos {r : Round ℝ} (hv : r.Valid) : 0 < r.duration :=
  (Exact.isPositive_iff _).mp hv.duration

theorem le_meanRate (hne : rs ≠ []) (hv : ∀ r ∈ rs, r.Valid) (h : ∀ r ∈ rs, bound ≤ r.rate) :
    bound ≤ meanRate rs :=
  Exact.le_sum_div_sum hne (fun r hr => duration_pos (hv r hr)) h

theorem meanRate_le (hne : rs ≠ []) (hv : ∀ r ∈ rs, r.Valid) (h : ∀ r ∈ rs, r.rate ≤ bound) :
    meanRate rs ≤ bound :=
  Exact.sum_div_sum_le hne (fun r hr => duration_pos (hv r hr)) h

theorem meanRate_scoreOf (rs : List (Round ℝ)) (m : RateModel ℝ) (v : ℝ) :
    (Round.scoreOf rs m v).meanRate = meanRate rs := by
  show Arith.sumBy Round.work rs / Arith.sumBy Round.duration rs = meanRate rs
  rw [Exact.sumBy_eq_sum, Exact.sumBy_eq_sum, meanRate]

/-- The rates of the rounds, from the least to the greatest. -/
structure RateRange (rs : List (Round ℝ)) (lo hi : ℝ) : Prop where
  least : IsLeast {x | x ∈ rs.map Round.rate} lo
  greatest : IsGreatest {x | x ∈ rs.map Round.rate} hi

theorem exists_rateRange (hne : rs ≠ []) : ∃ lo hi, RateRange rs lo hi := by
  have hrates : rs.map Round.rate ≠ [] := by simpa using hne
  obtain ⟨lo, hlo⟩ := exists_isLeast hrates
  obtain ⟨hi, hhi⟩ := exists_isGreatest hrates
  exact ⟨lo, hi, hlo, hhi⟩

namespace RateRange
variable {lo hi : ℝ}

theorem naiveRate_mem (h : RateRange rs lo hi) (hne : rs ≠ []) (hv : ∀ r ∈ rs, r.Valid) :
    naiveRate rs ∈ Set.Icc lo hi := by
  have hrates : rs.map Round.rate ≠ [] := by simpa using hne
  constructor
  · exact le_reduce_harmonic hrates (rates_pos hv) fun x hx => h.least.2 hx
  · exact reduce_harmonic_le hrates (rates_pos hv) fun x hx => h.greatest.2 hx

theorem meanRate_mem (h : RateRange rs lo hi) (hne : rs ≠ []) (hv : ∀ r ∈ rs, r.Valid) :
    meanRate rs ∈ Set.Icc lo hi := by
  constructor
  · exact le_meanRate hne hv fun r hr => h.least.2 (List.mem_map_of_mem hr)
  · exact meanRate_le hne hv fun r hr => h.greatest.2 (List.mem_map_of_mem hr)

end RateRange

theorem score_eq_scoreOf_naiveRate (hne : rs ≠ []) (hv : ∀ r ∈ rs, r.Valid) (hm : m.Valid) :
    Round.score rs m = .ok (Round.scoreOf rs m (naiveRate rs)) := by
  apply Round.score_eq_scoreOf hne hv hm
  · exact mean_eq_ok (accepts_rates hne hv)
  · exact (Exact.isPositive_iff _).mpr (naiveRate_pos hne hv)

end Score

/-! ## Rounds that were read -/

/-- A round of doubles as a round of exact numbers. -/
noncomputable def Round.exact (r : Round Float) : Round ℝ :=
  ⟨(Double.value r.work : ℝ), (Double.value r.duration : ℝ)⟩

theorem Round.Valid.exact {r : Round Float} (h : r.Valid) : r.exact.Valid where
  work := by
    rw [Exact.isPositive_iff]
    exact Rat.cast_pos.mpr (Double.value_pos h.work.2 h.work.1)
  duration := by
    rw [Exact.isPositive_iff]
    exact Rat.cast_pos.mpr (Double.value_pos h.duration.2 h.duration.1)

/-- **Rounds that can be fitted can be scored.** Valid rounds are scored by every valid model; the
    harmonic mean of the rates and the mean rate that the score gives both lie between the least
    and the greatest rate of a round. Rounds that are read are valid, and when they have a fit
    whose model is valid, that model scores them all, against the harmonic mean and against its
    own rate. -/
theorem score_of_read :
    (∀ (rs : List (Round ℝ)) (m : RateModel ℝ), rs ≠ [] → (∀ r ∈ rs, r.Valid) → m.Valid →
      ∃ s lo hi, Round.score rs m = .ok s ∧ RateRange rs lo hi ∧
        s.naiveRate = MeanMethod.harmonic.reduce (rs.map Round.rate) ∧
        s.meanRate = (rs.map Round.work).sum / (rs.map Round.duration).sum ∧
        s.naiveRate ∈ Set.Icc lo hi ∧ s.meanRate ∈ Set.Icc lo hi) ∧
    ∀ (bytes : List UInt8) (read : List (Round Float)), Table.readRounds bytes = .ok read →
      (∀ r ∈ read.map Round.exact, r.Valid) ∧
      ∀ (o : FitOptions ℝ) (f : Fit ℝ) (m : RateModel ℝ),
        Round.fit? (read.map Round.exact) o = .ok (some f) → f.model = .ok m →
        (∃ s, Round.score (read.map Round.exact) m = .ok s ∧ s.rounds = read.length) ∧
        ∃ s, Round.scoreAgainst (read.map Round.exact) m m.rate = .ok s ∧ s.rounds = read.length := by
  constructor
  · intro rs m hne hv hm
    obtain ⟨lo, hi, hrange⟩ := exists_rateRange hne
    refine ⟨_, lo, hi, score_eq_scoreOf_naiveRate hne hv hm, hrange, rfl, meanRate_scoreOf _ _ _,
      hrange.naiveRate_mem hne hv, ?_⟩
    rw [meanRate_scoreOf]
    exact hrange.meanRate_mem hne hv
  · intro bytes read hread
    constructor
    · intro x hx
      obtain ⟨r, hr, rfl⟩ := List.mem_map.mp hx
      exact (Table.valid_of_readRounds hread r hr).exact
    · intro o f m hfit hmodel
      obtain ⟨hne, hv⟩ := Round.valid_of_fit? hfit
      have hm := RateModel.valid_of_ofParts hmodel
      exact ⟨⟨_, score_eq_scoreOf_naiveRate hne hv hm, List.length_map _⟩,
        ⟨_, Round.scoreAgainst_eq_ok hne hv hm hm.rate, List.length_map _⟩⟩

/-- A text with the four rounds. -/
def fourText : List UInt8 := "work_amount,round_duration\n2,3\n1,2\n4,5\n2,3\n".toUTF8.toList

theorem readRounds_fourText : ∃ read, Table.readRounds fourText = .ok read ∧
    read.map Round.exact = fourRounds := by
  have hvalues : (Table.readRounds fourText).toOption.map
      (fun read => read.map fun r => (Double.value r.work, Double.value r.duration)) =
      some [(2, 3), (1, 2), (4, 5), (2, 3)] := by decide +kernel
  obtain ⟨read, hread, hvalues⟩ := Option.map_eq_some_iff.mp hvalues
  refine ⟨read, eq_ok_of_toOption hread, ?_⟩
  have hexact : read.map Round.exact =
      (read.map fun r => (Double.value r.work, Double.value r.duration)).map
        fun p : ℚ × ℚ => (⟨(p.1 : ℝ), (p.2 : ℝ)⟩ : Round ℝ) := by
    rw [List.map_map]
    rfl
  rw [hexact, hvalues]
  norm_num [fourRounds]

/-- The four rounds are read and fitted, and the model of the fit scores all of them, also the one that
    the fit left out. -/
theorem score_of_read_four :
    ∃ read, Table.readRounds fourText = .ok read ∧
      (∃ f, Round.fit? (read.map Round.exact) fourOptions = .ok (some f) ∧ f.model = .ok unitModel) ∧
      (∃ s, Round.score (read.map Round.exact) unitModel = .ok s ∧ s.rounds = read.length) ∧
      ∃ s lo hi, Round.score fourRounds unitModel = .ok s ∧ RateRange fourRounds lo hi ∧
        s.naiveRate ∈ Set.Icc lo hi ∧ s.meanRate ∈ Set.Icc lo hi := by
  obtain ⟨read, hread, hexact⟩ := readRounds_fourText
  obtain ⟨f, hfit, hrecovers⟩ := fit?_four
  have hmodel := hrecovers.model_eq_ok unitModel_valid
  rw [← hexact] at hfit
  obtain ⟨s, lo, hi, hs, hrange, _, _, hnaive, hmean⟩ :=
    score_of_read.1 fourRounds unitModel (by simp [fourRounds]) fourRounds_valid unitModel_valid
  have hpipeline := (score_of_read.2 fourText read hread).2 fourOptions f unitModel hfit hmodel
  exact ⟨read, hread, ⟨f, hfit, hmodel⟩, hpipeline.1, s, lo, hi, hs, hrange, hnaive, hmean⟩

end BatchMeans.Throughput
