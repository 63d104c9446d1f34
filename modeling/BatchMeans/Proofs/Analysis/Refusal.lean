import BatchMeans.Proofs.Analysis.Coherence

/- What an analysis can be refused for once its settings are valid.

   The functions that an analysis calls check the level, the limit and the width
   again, each with a cause of its own. Valid settings pass these checks as well
   as their own, so every refusal lies in the readings (`AboutReadings`): a series
   without a mean, a mean that is not finite, or a count out of range. -/
namespace BatchMeans.Series

section Causes
variable {α β γ : Type}

/-- The causes that lie in the readings, or in how many of them a width needs. -/
inductive AboutReadings : Invalid α → Prop where
  | empty : AboutReadings .emptySeries
  | notFinite (i : Nat) (x : α) : AboutReadings (.notFinite i x)
  | zero (i : Nat) : AboutReadings (.zeroReading i)
  | mean (x : α) : AboutReadings (.sampleMeanNotFinite x)
  | blocks (width : α) : AboutReadings (.tooManyBlocks width)
  | readings (width : α) : AboutReadings (.tooManyReadings width)

/-- A refusal, if it comes to one, is for a cause that lies in the readings. -/
def OnlyReadings (x : Checked α β) : Prop :=
  ∀ e, x = .error e → ∃ cause, AboutReadings cause ∧ e = .invalid cause

namespace OnlyReadings

theorem ok (b : β) : OnlyReadings (.ok b : Checked α β) := by
  intro e h
  cases h

theorem of_eq_ok {x : Checked α β} {b : β} (h : x = .ok b) : OnlyReadings x := h ▸ ok b

theorem refuse {cause : Invalid α} (h : AboutReadings cause) :
    OnlyReadings (refuse cause : Checked α β) := by
  intro e he
  exact ⟨cause, h, (Except.error.inj he).symm⟩

theorem require {cause : Invalid α} (p : Prop) [Decidable p] (h : AboutReadings cause) :
    OnlyReadings (require p cause) := by
  unfold BatchMeans.require
  split
  · exact ok ()
  · exact refuse h

theorem bind {x : Checked α β} {f : β → Checked α γ} (hx : OnlyReadings x)
    (hf : ∀ b, x = .ok b → OnlyReadings (f b)) : OnlyReadings (x >>= f) := by
  cases x with
  | error e => exact fun e' h => hx e' (congrArg Except.error (Except.error.inj h))
  | ok b => exact hf b rfl

end OnlyReadings
end Causes

section Mean
variable {α : Type} [Arith α]

theorem checkFinite_onlyReadings (xs : List α) : OnlyReadings (checkFinite xs) := by
  unfold checkFinite
  split
  · exact .refuse .empty
  · split
    · exact .refuse (.notFinite _ _)
    · exact .ok ()

theorem checkMethod_onlyReadings (xs : List α) (method : MeanMethod) :
    OnlyReadings (checkMethod xs method) := by
  cases method with
  | arithmetic => exact .ok ()
  | harmonic =>
    simp only [checkMethod]
    split
    · exact .refuse (.zero _)
    · exact .ok ()

theorem mean_onlyReadings (xs : List α) (method : MeanMethod) : OnlyReadings (mean xs method) :=
  .bind (checkFinite_onlyReadings xs) fun _ _ =>
    .bind (checkMethod_onlyReadings xs method) fun _ _ => .ok _

end Mean

section Analysis
variable {α : Type} [RootArith α] {law : TailLaw α} {xs : List α} {s : Settings α} {q : Nat}

theorem ofBound_onlyReadings (width : α) (q : Nat) (bound : α) :
    OnlyReadings (SampleSize.ofBound width q bound) := by
  unfold SampleSize.ofBound
  split
  · exact .refuse (.blocks width)
  · exact .bind (.require _ (.blocks width)) fun _ _ => .bind (.require _ (.readings width)) fun _ _ => .ok _

/-- A block size that was found has an interval and a variance; only the count may be out of range. -/
theorem analyzeBlocks_onlyReadings (hv : s.Valid) (h : Accepts xs s.method)
    (hsize : blockSize? xs s.method s.limit = .ok (some q)) (hq : 2 ≤ xs.length / q)
    (hc : Arith.isFinite (s.method.reduce xs) = true) :
    OnlyReadings (analyzeBlocks law xs s (s.method.reduce xs) q) := by
  obtain ⟨t, ht⟩ := exists_criticalValue_of_two_le_div law hv.level hq
  refine .bind (.of_eq_ok (confidenceInterval_eq_ok h hv.level hq ht .sample)) fun _ _ =>
    .bind (.of_eq_ok (blockVariance_eq_ok h hq hc)) fun _ _ => ?_
  cases hw : s.width with
  | none => exact .ok _
  | some width =>
    have hrequired := requiredSize?_eq hv.level (hv.width width hw) h hsize hq hc ht
    refine .bind ?_ fun _ _ => .ok _
    rw [hrequired]
    exact .bind (ofBound_onlyReadings width q _) fun _ _ => .ok _

/-- An analysis with valid settings is refused for its readings or not at all. -/
theorem analyze_onlyReadings [OrderedArith α] (law : TailLaw α) (xs : List α) (hv : s.Valid) :
    OnlyReadings (analyze law xs s) := by
  refine .bind (.of_eq_ok (Settings.check_eq_ok_iff.mpr hv)) fun _ _ =>
    .bind (mean_onlyReadings xs s.method) fun c hmean => ?_
  obtain ⟨h, rfl⟩ := mean_eq_ok_iff.mp hmean
  have hl : 0 ≤ s.limit := OrderedArith.le_of_lt hv.limit.1
  split
  · exact .ok _
  next hn =>
    have hn2 : 2 ≤ xs.length := Nat.le_of_not_lt hn
    by_cases hc : Arith.isFinite (s.method.reduce xs) = true
    · obtain ⟨r, hr, hleast⟩ := blockSize?_isLeastOf h hn2 hc hl
      rw [hr, ok_bind]
      cases r with
      | none => exact .ok _
      | some q =>
        exact .bind (analyzeBlocks_onlyReadings hv h hr hleast.1.two_le_div hc) fun _ _ => .ok _
    · -- The search is the first to look at a mean that is not finite.
      rw [blockSize?_of_not_finite h hn2 hc hl]
      exact .refuse (.mean _)

end Analysis
end BatchMeans.Series
