import BatchMeans.Proofs.Series.LeastBlockSize
import BatchMeans.Throughput.Fit
import BatchMeans.Throughput.Score

/- What a fit and a score accept, and what they then are.

   A list of rounds passes when each round does, and a model when its two parts
   do. For rounds that pass, `fit?` is the fit of one block size: the least
   that qualifies for the rates of the rounds that are kept, as long as it
   leaves three blocks (`Fitting`). -/
namespace BatchMeans.Throughput

section Checks
variable {α : Type} [Arith α]

/-- A round that passes its check. -/
structure Round.Valid (r : Round α) : Prop where
  work : Arith.IsPositive r.work
  duration : Arith.IsPositive r.duration

/-- A model that passes its check. -/
structure RateModel.Valid (m : RateModel α) : Prop where
  overhead : 0 ≤ m.overhead ∧ Arith.isFinite m.overhead = true
  rate : Arith.IsPositive m.rate

theorem RateModel.check_eq_ok_iff {m : RateModel α} : m.check = .ok () ↔ m.Valid := by
  unfold RateModel.check
  simp only [bind_eq_ok_iff, require_eq_ok_iff]
  constructor
  · rintro ⟨_, hoverhead, hrate⟩
    exact ⟨hoverhead, hrate⟩
  · intro h
    exact ⟨(), h.overhead, h.rate⟩

theorem RateModel.ofParts_eq_ok {m : RateModel α} (h : m.Valid) :
    RateModel.ofParts m.overhead m.rate = .ok m := by
  simp [RateModel.ofParts, RateModel.check_eq_ok_iff.mpr h]

/-- A model that is made passes its check. -/
theorem RateModel.valid_of_ofParts {overhead rate : α} {m : RateModel α}
    (h : RateModel.ofParts overhead rate = .ok m) : m.Valid := by
  obtain ⟨_, hcheck, hm⟩ := bind_eq_ok_iff.mp h
  cases hm
  exact RateModel.check_eq_ok_iff.mp hcheck

theorem Round.check_eq_ok_iff {r : Round α} : r.check = .ok () ↔ r.Valid := by
  unfold Round.check
  simp only [bind_eq_ok_iff, require_eq_ok_iff]
  constructor
  · rintro ⟨_, hwork, hduration⟩
    exact ⟨hwork, hduration⟩
  · intro h
    exact ⟨(), h.work, h.duration⟩

/-- A round that is made passes its check. -/
theorem Round.valid_of_ofParts {work duration : α} {r : Round α}
    (h : Round.ofParts work duration = .ok r) : r.Valid := by
  obtain ⟨_, hcheck, hr⟩ := bind_eq_ok_iff.mp h
  cases hr
  exact Round.check_eq_ok_iff.mp hcheck

theorem Round.checkFrom_eq_ok_iff : ∀ (i : Nat) (rs : List (Round α)),
    Round.checkFrom i rs = .ok () ↔ ∀ r ∈ rs, r.Valid
  | _, [] => by simp [Round.checkFrom]
  | i, r :: rest => by
    have hr := Round.check_eq_ok_iff (r := r)
    have hrest := Round.checkFrom_eq_ok_iff (i + 1) rest
    rw [List.forall_mem_cons, ← hr, ← hrest, Round.checkFrom]
    cases r.check with
    | ok _ => simp
    | error e => cases e <;> simp [refuse]

theorem Round.checkAll_eq_ok_iff {rs : List (Round α)} :
    Round.checkAll rs = .ok () ↔ ∀ r ∈ rs, r.Valid := Round.checkFrom_eq_ok_iff 0 rs

theorem Round.checkNonempty_eq_ok_iff {rs : List (Round α)} :
    Round.checkNonempty rs = .ok () ↔ rs ≠ [] ∧ ∀ r ∈ rs, r.Valid := by
  unfold Round.checkNonempty
  simp only [bind_eq_ok_iff, require_eq_ok_iff, exists_const, Round.checkAll_eq_ok_iff,
    List.isEmpty_eq_false_iff]

/-- The score of a model beside a naive rate, without any check. -/
def Round.scoreOf (rs : List (Round α)) (m : RateModel α) (naiveRate : α) : Score α where
  rounds := rs.length
  totalWork := Arith.sumBy Round.work rs
  totalDuration := Arith.sumBy Round.duration rs
  meanRate := Arith.sumBy Round.work rs / Arith.sumBy Round.duration rs
  model := m
  modelError := .ofSum (Round.absoluteError m.duration rs) (Arith.sumBy Round.duration rs)
  naiveRate := naiveRate
  naiveError := .ofSum (Round.absoluteError (fun work => work / naiveRate) rs)
    (Arith.sumBy Round.duration rs)

/-- A score is given for rounds, a model and a naive rate that are all valid, and for no others. -/
theorem Round.scoreAgainst_eq_ok_iff {rs : List (Round α)} {m : RateModel α} {naiveRate : α}
    {s : Score α} : Round.scoreAgainst rs m naiveRate = .ok s ↔
      (rs ≠ [] ∧ ∀ r ∈ rs, r.Valid) ∧ m.Valid ∧ Arith.IsPositive naiveRate ∧
        Round.scoreOf rs m naiveRate = s := by
  unfold Round.scoreAgainst
  constructor
  · intro h
    obtain ⟨_, hrounds, h⟩ := bind_eq_ok_iff.mp h
    obtain ⟨_, hm, h⟩ := bind_eq_ok_iff.mp h
    obtain ⟨_, hrate, h⟩ := bind_eq_ok_iff.mp h
    exact ⟨Round.checkNonempty_eq_ok_iff.mp hrounds, RateModel.check_eq_ok_iff.mp hm,
      require_eq_ok_iff.mp hrate, Except.ok.inj h⟩
  · intro h
    obtain ⟨hrounds, hm, hrate, rfl⟩ := h
    simp [Round.checkNonempty_eq_ok_iff.mpr hrounds, RateModel.check_eq_ok_iff.mpr hm,
      require_of hrate, Round.scoreOf]

theorem Round.scoreAgainst_eq_ok {rs : List (Round α)} {m : RateModel α} {naiveRate : α} (hne : rs ≠ [])
    (hv : ∀ r ∈ rs, r.Valid) (hm : m.Valid) (hrate : Arith.IsPositive naiveRate) :
    Round.scoreAgainst rs m naiveRate = .ok (Round.scoreOf rs m naiveRate) :=
  Round.scoreAgainst_eq_ok_iff.mpr ⟨⟨hne, hv⟩, hm, hrate, rfl⟩

theorem Round.score_eq_scoreOf {rs : List (Round α)} {m : RateModel α} {naiveRate : α} (hne : rs ≠ [])
    (hv : ∀ r ∈ rs, r.Valid) (hm : m.Valid)
    (hmean : Series.mean (rs.map Round.rate) .harmonic = .ok naiveRate)
    (hrate : Arith.IsPositive naiveRate) :
    Round.score rs m = .ok (Round.scoreOf rs m naiveRate) := by
  simp [Round.score, Round.checkNonempty_eq_ok_iff.mpr ⟨hne, hv⟩, hmean,
    Round.scoreAgainst_eq_ok hne hv hm hrate]

/-- The score of valid rounds whose rates have a mean. -/
theorem Round.score_eq_ok {rs : List (Round α)} {m : RateModel α} {naiveRate : α} (hne : rs ≠ [])
    (hv : ∀ r ∈ rs, r.Valid) (hm : m.Valid)
    (hmean : Series.mean (rs.map Round.rate) .harmonic = .ok naiveRate)
    (hrate : Arith.IsPositive naiveRate) :
    ∃ s, Round.score rs m = .ok s ∧ s.modelError.sum = Round.absoluteError m.duration rs ∧
      s.naiveError.sum = Round.absoluteError (fun work => work / naiveRate) rs :=
  ⟨_, Round.score_eq_scoreOf hne hv hm hmean hrate, rfl, rfl⟩

end Checks

section Fits
variable {α : Type} [RootArith α] {rs : List (Round α)} {o : FitOptions α} {q : Nat}

/-- The rounds that are longer than the threshold. -/
def keptRounds (rs : List (Round α)) (o : FitOptions α) : List (Round α) :=
  rs.filter fun r => decide (o.threshold < r.duration)

theorem mem_of_mem_keptRounds {r : Round α} (h : r ∈ keptRounds rs o) : r ∈ rs :=
  (List.mem_filter.mp h).1

theorem valid_keptRounds (hv : ∀ r ∈ rs, r.Valid) : ∀ r ∈ keptRounds rs o, r.Valid :=
  fun r hr => hv r (mem_of_mem_keptRounds hr)

/-- Valid rounds are all longer than zero. -/
theorem keptRounds_of_threshold_eq_zero (h : o.threshold = 0) (hv : ∀ r ∈ rs, r.Valid) :
    keptRounds rs o = rs := by
  apply List.filter_eq_self.mpr
  intro r hr
  rw [h]
  exact decide_eq_true (hv r hr).duration.1

/-- Blocks of `q` kept rounds are what a line is fitted to: no smaller size qualifies for the
    rates, and there are three blocks or more. -/
structure Fitting (rs : List (Round α)) (o : FitOptions α) (q : Nat) : Prop where
  least : IsLeast {q | Series.Qualifies ((keptRounds rs o).map Round.rate)
    (MeanMethod.harmonic.reduce ((keptRounds rs o).map Round.rate)) .harmonic o.limit q} q
  three_le_div : 3 ≤ (keptRounds rs o).length / q

theorem Fitting.unique {q' : Nat} (h : Fitting rs o q) (h' : Fitting rs o q') : q = q' :=
  h.least.unique h'.least

/-- The fit to the rounds that are kept, which are not checked again. -/
def Round.fitKept? (kept : List (Round α)) (limit : α) : Checked α (Option (Fit α)) :=
  if kept.length < 3 then .ok none
  else Series.blockSize? (kept.map Round.rate) .harmonic limit >>= fun
    | none => .ok none
    | some q =>
      if kept.length / q < 3 then .ok none
      else Round.fitBlocks kept q >>= fun f => .ok (some f)

/-- A fit checks the rounds and then leaves out the short ones. -/
theorem Round.fit?_eq_bind (rs : List (Round α)) (o : FitOptions α) :
    Round.fit? rs o = Round.checkAll rs >>= fun _ => Round.fitKept? (keptRounds rs o) o.limit := rfl

/-- A fit of valid rounds is the fit to the one block size that is fitting, or there is none. -/
theorem Round.fit?_eq [OrderedArith α] (hv : ∀ r ∈ rs, r.Valid) (hl : 0 ≤ o.limit)
    (hrates : keptRounds rs o ≠ [] → Series.Accepts ((keptRounds rs o).map Round.rate) .harmonic)
    (hfinite : Arith.isFinite
      (MeanMethod.harmonic.reduce ((keptRounds rs o).map Round.rate)) = true) :
    (Round.fit? rs o = .ok none ∧ ∀ q, ¬ Fitting rs o q) ∨
    ∃ q, Fitting rs o q ∧
      Round.fit? rs o = (Round.fitBlocks (keptRounds rs o) q >>= fun f => .ok (some f)) := by
  rw [Round.fit?_eq_bind, Round.checkAll_eq_ok_iff.mpr hv, ok_bind, Round.fitKept?]
  by_cases hlen : (keptRounds rs o).length < 3
  · rw [if_pos hlen]
    -- Three blocks would be three rounds or more.
    refine .inl ⟨rfl, fun q h => ?_⟩
    have hdiv := h.three_le_div
    have := Nat.div_le_self (keptRounds rs o).length q
    omega
  rw [if_neg hlen]
  have haccepts := hrates (by intro hnil; simp [hnil] at hlen)
  obtain ⟨r, hr, hleast⟩ := Series.blockSize?_isLeastOf haccepts (by simp; omega) hfinite hl
  rw [hr, ok_bind]
  cases r with
  | none => exact .inl ⟨rfl, fun q h => hleast q h.least.1⟩
  | some q =>
    by_cases hdiv : (keptRounds rs o).length / q < 3
    · refine .inl ⟨if_pos hdiv, fun q' h => ?_⟩
      obtain rfl := hleast.unique h.least
      have := h.three_le_div
      omega
    · exact .inr ⟨q, ⟨hleast, by omega⟩, if_neg hdiv⟩

/-- A fit is made of rounds that are valid, the ones that are left out included. -/
theorem Round.valid_of_fit? {f : Fit α} (h : Round.fit? rs o = .ok (some f)) :
    rs ≠ [] ∧ ∀ r ∈ rs, r.Valid := by
  obtain ⟨_, hcheck, hfit⟩ := bind_eq_ok_iff.mp h
  refine ⟨?_, Round.checkAll_eq_ok_iff.mp hcheck⟩
  rintro rfl
  cases hfit

end Fits
end BatchMeans.Throughput
