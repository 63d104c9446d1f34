import BatchMeans.Proofs.Throughput.ExactModel
import BatchMeans.Proofs.Throughput.NormalEquations

/- The ways in which a fit ends.

   `FitOutcome` has one constructor for each of them, and a fit with a limit that is not
   negative ends in one (`fit?_outcome`). The search asks for two blocks and the
   fit for three, and it is tried on the size that the search found only. No other size is
   missed: a smaller size leaves as many blocks or more, so the least size that
   leaves three blocks and qualifies is the least that qualifies at all
   (`isLeast_groups_iff`), and when the search's size leaves two blocks, no size that
   leaves three qualifies. -/
namespace BatchMeans.Throughput
open Series

/-! ## Sizes that leave three blocks -/

section Groups
variable {α : Type} [RootArith α] {rs : List (Round α)} {o : FitOptions α} {q : Nat}

/-- There are three blocks of `q` kept rounds or more, and the coefficient of their rates is within the
    limit. -/
def Groups (rs : List (Round α)) (o : FitOptions α) (q : Nat) : Prop :=
  1 ≤ q ∧ 3 ≤ (keptRounds rs o).length / q ∧
    ∃ c, effectiveCoefficient? ((keptRounds rs o).map Round.rate) q
      (MeanMethod.harmonic.reduce ((keptRounds rs o).map Round.rate)) .harmonic = some c ∧ c ≤ o.limit

theorem groups_iff : Groups rs o q ↔ Qualifies ((keptRounds rs o).map Round.rate)
    (MeanMethod.harmonic.reduce ((keptRounds rs o).map Round.rate)) .harmonic o.limit q ∧
      3 ≤ (keptRounds rs o).length / q := by
  rw [Groups, Qualifies, List.length_map]
  constructor
  · rintro ⟨hq, hdiv, hc⟩
    exact ⟨⟨hq, by omega, hc⟩, hdiv⟩
  · rintro ⟨⟨hq, _, hc⟩, hdiv⟩
    exact ⟨hq, hdiv, hc⟩

theorem isLeast_groups_iff : IsLeast {q | Groups rs o q} q ↔ Fitting rs o q := by
  constructor
  · rintro ⟨hq, hmin⟩
    obtain ⟨hqualifies, hdiv⟩ := groups_iff.mp hq
    refine ⟨⟨hqualifies, ?_⟩, hdiv⟩
    intro q' hq'
    by_contra hlt
    -- A smaller size would leave three blocks as well.
    have hmore : (keptRounds rs o).length / q ≤ (keptRounds rs o).length / q' :=
      Nat.div_le_div_left (Nat.le_of_not_le hlt) hq'.1
    exact hlt (hmin (groups_iff.mpr ⟨hq', hdiv.trans hmore⟩))
  · rintro ⟨⟨hqualifies, hmin⟩, hdiv⟩
    exact ⟨groups_iff.mpr ⟨hqualifies, hdiv⟩, fun q' hq' => hmin (groups_iff.mp hq').1⟩

/-- The least of the sizes that leave three blocks exists where there is one. -/
theorem forall_not_fitting_iff : (∀ q, ¬ Fitting rs o q) ↔
    (keptRounds rs o).length < 3 ∨ ∀ q, ¬ Groups rs o q := by
  classical
  constructor
  · intro hnone
    refine .inr fun q hq => ?_
    have hex : ∃ q, Groups rs o q := ⟨q, hq⟩
    exact hnone (Nat.find hex)
      (isLeast_groups_iff.mp ⟨Nat.find_spec hex, fun _ hq' => Nat.find_min' hex hq'⟩)
  · rintro (hshort | hnone) q hq
    · have hdiv := hq.three_le_div
      have := Nat.div_le_self (keptRounds rs o).length q
      omega
    · exact hnone q (isLeast_groups_iff.mpr hq).1

/-- Rounds that are kept are kept again. -/
theorem keptRounds_keptRounds (rs : List (Round α)) (o : FitOptions α) :
    keptRounds (keptRounds rs o) o = keptRounds rs o := by
  apply List.filter_eq_self.mpr
  intro r hr
  exact (List.mem_filter.mp hr).2

end Groups

/-! ## Checks of the rounds -/

section Checks
variable {α : Type} [RootArith α]

theorem Round.check_onlyInvalid (r : Round α) : OnlyInvalid r.check :=
  .bind (.require _ _) fun _ _ => .require _ _

theorem Round.checkFrom_onlyInvalid : ∀ (i : Nat) (rs : List (Round α)),
    OnlyInvalid (Round.checkFrom i rs)
  | _, [] => .ok ()
  | i, r :: rest => by
    rw [Round.checkFrom]
    cases hr : r.check with
    | ok _ => exact Round.checkFrom_onlyInvalid (i + 1) rest
    | error e =>
      obtain ⟨cause, rfl⟩ := Round.check_onlyInvalid r e hr
      exact .refuse _

theorem Round.fit?_of_bad_round {rs : List (Round α)} {o : FitOptions α}
    (hbad : ∃ r ∈ rs, ¬ r.Valid) : ∃ cause, Round.fit? rs o = .error (.invalid cause) := by
  cases hcheck : Round.checkAll rs with
  | ok _ =>
    obtain ⟨r, hr, hr'⟩ := hbad
    exact absurd (Round.checkAll_eq_ok_iff.mp hcheck r hr) hr'
  | error e =>
    obtain ⟨cause, rfl⟩ := Round.checkFrom_onlyInvalid 0 rs e hcheck
    exact ⟨cause, by rw [Round.fit?_eq_bind, hcheck, error_bind]⟩

end Checks

/-! ## The outcomes -/

variable {rs : List (Round ℝ)} {o : FitOptions ℝ} {q : ℕ} {f : Fit ℝ}

theorem Fitting.two_le_length (h : Fitting rs o q) :
    2 ≤ (blockPoints (keptRounds rs o) q).length := by
  have := h.three_le_div
  rw [length_blockPoints]
  omega

/-- How a fit ends. -/
inductive FitOutcome (rs : List (Round ℝ)) (o : FitOptions ℝ) :
    Checked ℝ (Option (Fit ℝ)) → Prop where
  | badRound {cause : Invalid ℝ} : (∃ r ∈ rs, ¬ r.Valid) → FitOutcome rs o (.error (.invalid cause))
  | unfitted : (∀ r ∈ rs, r.Valid) → (∀ q, ¬ Fitting rs o q) → FitOutcome rs o (.ok none)
  | equalWorks {q : ℕ} : (∀ r ∈ rs, r.Valid) → Fitting rs o q →
    Coincide (Line.abscissas (blockPoints (keptRounds rs o) q)) →
    FitOutcome rs o (.error (.undefined .equalAbscissas))
  | badSlope {q : ℕ} : (∀ r ∈ rs, r.Valid) → Fitting rs o q →
    ¬ Coincide (Line.abscissas (blockPoints (keptRounds rs o) q)) →
    ¬ 0 < Line.fittedSlope (blockPoints (keptRounds rs o) q) →
    FitOutcome rs o (.error (.invalid
      (.slopeNotPositive (Line.fittedSlope (blockPoints (keptRounds rs o) q)))))
  | fitted {q : ℕ} : (∀ r ∈ rs, r.Valid) → Fitting rs o q →
    ¬ Coincide (Line.abscissas (blockPoints (keptRounds rs o) q)) →
    0 < Line.fittedSlope (blockPoints (keptRounds rs o) q) →
    FitOutcome rs o (.ok (some (blockFit (keptRounds rs o) q)))

theorem fit?_outcome (rs : List (Round ℝ)) (hl : 0 ≤ o.limit) :
    FitOutcome rs o (Round.fit? rs o) := by
  by_cases hv : ∀ r ∈ rs, r.Valid
  · rcases fit?_cases hv hl with ⟨hnone, hno⟩ | ⟨q, hq, hfit⟩
    · rw [hnone]
      exact .unfitted hv hno
    · rw [hfit, fitBlocks_eq hq.three_le_div]
      by_cases hall : Coincide (Line.abscissas (blockPoints (keptRounds rs o) q))
      · rw [if_pos hall]
        exact .equalWorks hv hq hall
      · rw [if_neg hall]
        by_cases hslope : 0 < Line.fittedSlope (blockPoints (keptRounds rs o) q)
        · rw [if_pos hslope]
          exact .fitted hv hq hall hslope
        · rw [if_neg hslope]
          exact .badSlope hv hq hall hslope
  · push Not at hv
    obtain ⟨cause, hcause⟩ := Round.fit?_of_bad_round (o := o) hv
    rw [hcause]
    exact .badRound hv

/-- A fit is only made with a limit that is not negative. -/
theorem limit_of_fit? (h : Round.fit? rs o = .ok (some f)) : 0 ≤ o.limit := by
  rw [Round.fit?_eq_bind] at h
  obtain ⟨_, _, hkept⟩ := bind_eq_ok_iff.mp h
  rw [Round.fitKept?] at hkept
  split at hkept
  · cases hkept
  · obtain ⟨_, hsize, _⟩ := bind_eq_ok_iff.mp hkept
    exact (accepts_of_blockSize? hsize).2

/-- What a fit that is made has gone through. -/
structure Fitted (rs : List (Round ℝ)) (o : FitOptions ℝ) (q : ℕ) (f : Fit ℝ) : Prop where
  fitting : Fitting rs o q
  works : ¬ Coincide (Line.abscissas (blockPoints (keptRounds rs o) q))
  slope : 0 < Line.fittedSlope (blockPoints (keptRounds rs o) q)
  eq : f = blockFit (keptRounds rs o) q

theorem fit?_eq_some_iff : Round.fit? rs o = .ok (some f) ↔
    0 ≤ o.limit ∧ (∀ r ∈ rs, r.Valid) ∧ ∃ q, Fitted rs o q f := by
  constructor
  · intro h
    have hl := limit_of_fit? h
    have houtcome := fit?_outcome rs hl
    rw [h] at houtcome
    cases houtcome with
    | fitted hv hq hall hslope => exact ⟨hl, hv, _, hq, hall, hslope, rfl⟩
  · rintro ⟨hl, hv, q, h⟩
    rw [fit?_of_fitting hv hl h.fitting, fitBlocks_eq h.fitting.three_le_div, if_neg h.works,
      if_pos h.slope, ok_bind, h.eq]

/-! ## The classification -/

/-- The short rounds might as well have been left out before. -/
theorem fit?_keptRounds (hv : ∀ r ∈ rs, r.Valid) :
    Round.fit? (keptRounds rs o) o = Round.fit? rs o := by
  rw [Round.fit?_eq_bind, Round.fit?_eq_bind, Round.checkAll_eq_ok_iff.mpr hv,
    Round.checkAll_eq_ok_iff.mpr (valid_keptRounds hv), keptRounds_keptRounds]

/-- **The outcome of a fit is exactly classified.** A bad round breaks a rule, even one that is too short
    to be kept. Of valid rounds the short ones do not matter; there is no fit exactly when fewer than
    three are kept or no size at all leaves three blocks and qualifies; otherwise, with the least such
    size, the fit has a zero divisor exactly when the mean works are all equal, breaks a rule exactly
    when the slope of the closest line is not positive, and is made else. -/
theorem fit?_classified (rs : List (Round ℝ)) (o : FitOptions ℝ) (hl : 0 ≤ o.limit) :
    ((∃ r ∈ rs, ¬ r.Valid) → ∃ cause, Round.fit? rs o = .error (.invalid cause)) ∧
    ((∀ r ∈ rs, r.Valid) →
      Round.fit? rs o = Round.fit? (keptRounds rs o) o ∧
      (Round.fit? rs o = .ok none ↔ (keptRounds rs o).length < 3 ∨ ∀ q, ¬ Groups rs o q) ∧
      (Round.fit? rs o ≠ .ok none →
        ∃ q, IsLeast {q | Groups rs o q} q ∧
          ((∃ cause, Round.fit? rs o = .error (.undefined cause)) ↔
            Coincide (Line.abscissas (blockPoints (keptRounds rs o) q))) ∧
          (¬ Coincide (Line.abscissas (blockPoints (keptRounds rs o) q)) →
            ∃ l : Line ℝ, l.Closest (blockPoints (keptRounds rs o) q) ∧
              ((∃ cause, Round.fit? rs o = .error (.invalid cause)) ↔ ¬ 0 < l.slope) ∧
              (0 < l.slope → ∃ f, Round.fit? rs o = .ok (some f) ∧ 0 < f.rate ∧
                f.roundsUsed = (keptRounds rs o).length ∧ f.blockSize = q ∧
                f.blockCount = f.roundsUsed / f.blockSize ∧ 3 ≤ f.blockCount)))) := by
  refine ⟨Round.fit?_of_bad_round, fun hv => ⟨(fit?_keptRounds hv).symm, ?_⟩⟩
  have houtcome := fit?_outcome rs hl
  rw [← forall_not_fitting_iff]
  generalize Round.fit? rs o = result at houtcome
  cases houtcome with
  | badRound hbad =>
    obtain ⟨r, hr, hr'⟩ := hbad
    exact absurd (hv r hr) hr'
  | unfitted _ hno => exact ⟨⟨fun _ => hno, fun _ => rfl⟩, fun hne => absurd rfl hne⟩
  | @equalWorks q _ hq hall =>
    have hleast := isLeast_groups_iff.mpr hq
    refine ⟨⟨fun h => (nomatch h), fun hno => absurd hq (hno q)⟩, fun _ => ⟨q, hleast, ?_, ?_⟩⟩
    · exact ⟨fun _ => hall, fun _ => ⟨_, rfl⟩⟩
    · exact fun hne => absurd hall hne
  | @badSlope q _ hq hall hslope =>
    have hleast := isLeast_groups_iff.mpr hq
    have hclosest := Line.closest_fittedLine hq.two_le_length hall
    refine ⟨⟨fun h => (nomatch h), fun hno => absurd hq (hno q)⟩,
      fun _ => ⟨q, hleast, ?_, fun _ => ⟨_, hclosest, ?_, ?_⟩⟩⟩
    · exact ⟨fun ⟨_, h⟩ => (nomatch h), fun h => absurd h hall⟩
    · exact ⟨fun _ => hslope, fun _ => ⟨_, rfl⟩⟩
    · exact fun h => absurd h hslope
  | @fitted q _ hq hall hslope =>
    have hleast := isLeast_groups_iff.mpr hq
    have hclosest := Line.closest_fittedLine hq.two_le_length hall
    have hrate : 0 < (blockFit (keptRounds rs o) q).rate := one_div_pos.mpr hslope
    refine ⟨⟨fun h => (nomatch h), fun hno => absurd hq (hno q)⟩,
      fun _ => ⟨q, hleast, ?_, fun _ => ⟨_, hclosest, ?_, ?_⟩⟩⟩
    · exact ⟨fun ⟨_, h⟩ => (nomatch h), fun h => absurd h hall⟩
    · exact ⟨fun ⟨_, h⟩ => (nomatch h), fun h => absurd hslope h⟩
    · exact fun _ => ⟨_, rfl, hrate, rfl, rfl, rfl, hq.three_le_div⟩

/-- Four rounds, one of them too short, have a fit with blocks of one round; a bad round is refused although
    it is too short to be kept. -/
theorem fit?_classified_four :
    (∃ cause, Round.fit? (⟨0, 1⟩ :: fourRounds) fourOptions = .error (.invalid cause)) ∧
    Round.fit? fourRounds fourOptions = Round.fit? (keptRounds fourRounds fourOptions) fourOptions ∧
    ∃ f, Round.fit? fourRounds fourOptions = .ok (some f) ∧ 0 < f.rate ∧ f.roundsUsed = 3 ∧
      f.blockSize = 1 ∧ f.blockCount = 3 := by
  have hbad : ¬ Round.Valid (⟨0, 1⟩ : Round ℝ) := fun h => lt_irrefl (0 : ℝ) h.work.1
  have hrefused := (fit?_classified (⟨0, 1⟩ :: fourRounds) fourOptions zero_le_one).1
    ⟨_, List.mem_cons_self, hbad⟩
  obtain ⟨hkept, hnone, hmade⟩ := (fit?_classified fourRounds fourOptions zero_le_one).2 fourRounds_valid
  have hne : Round.fit? fourRounds fourOptions ≠ .ok none := by
    rw [ne_eq, hnone, ← forall_not_fitting_iff]
    exact fun hno => hno 1 fitting_four
  obtain ⟨q, hq, _, hline⟩ := hmade hne
  obtain rfl := (isLeast_groups_iff.mp hq).unique fitting_four
  obtain ⟨l, hclosest, _, hfit⟩ := hline not_coincide_four
  have hexplains : unitModel.Explains (keptRounds fourRounds fourOptions) := fun r hr =>
    unitModel_explains r (mem_of_mem_keptRounds hr)
  obtain rfl := hclosest.eq_of_through (hexplains.through_blockPoints le_rfl)
  obtain ⟨f, hf, hrate, hrounds, hsize, hcount, _⟩ := hfit (one_div_pos.mpr one_pos)
  rw [keptRounds_four] at hrounds
  rw [hrounds, hsize] at hcount
  exact ⟨hrefused, hkept, f, hf, hrate, hrounds, hsize, hcount⟩

end BatchMeans.Throughput
