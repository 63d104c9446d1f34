import Mathlib.Logic.Basic
import BatchMeans.Fault

/- Computations that may be refused, taken apart.

   `bind_eq_ok_iff` opens a chain of checks from its result; the simp lemmas
   run a chain whose checks are known to pass. `OnlyInvalid` says that a
   computation is never refused for a quotient without a value, and has a
   closure lemma for each way of putting computations together. `Admissible` says
   that it is not refused for a rule: its checks can then be read off one by one
   (`Admissible.of_bind`), whether it has a value or only lacks one. -/
namespace BatchMeans
variable {α β γ ε ε' : Type}

theorem bind_eq_ok_iff {x : Except ε β} {f : β → Except ε γ} {c : γ} :
    (x >>= f) = .ok c ↔ ∃ b, x = .ok b ∧ f b = .ok c := by
  cases x <;> simp [bind, Except.bind]

@[simp] theorem ok_bind (b : β) (f : β → Except ε γ) : (Except.ok b >>= f) = f b := rfl

@[simp] theorem error_bind (e : ε) (f : β → Except ε γ) :
    (Except.error e >>= f) = .error e := rfl

@[simp] theorem pure_eq_ok (b : β) : (pure b : Except ε β) = .ok b := rfl

/-- A note on the error leaves a success as it is. -/
theorem mapError_eq_ok_iff {x : Except ε β} {f : ε → ε'} {b : β} :
    x.mapError f = .ok b ↔ x = .ok b := by
  cases x with
  | ok a => constructor <;> exact fun h => congrArg Except.ok (Except.ok.inj h)
  | error e => exact ⟨fun h => (nomatch h), fun h => (nomatch h)⟩

theorem eq_ok_of_toOption {x : Except ε β} {b : β} (h : x.toOption = some b) : x = .ok b := by
  cases x with
  | ok a => exact congrArg Except.ok (Option.some.inj h)
  | error e => cases h

/-- Two chains that go on alike from what comes first. -/
theorem bind_congr_of_ok {x : Except ε β} {f g : β → Except ε γ} (h : ∀ b, x = .ok b → f b = g b) :
    (x >>= f) = (x >>= g) := by
  cases x with
  | error e => rfl
  | ok b => exact h b rfl

/-- A chain that succeeds succeeds with another end, if that succeeds wherever its own does. -/
theorem bind_eq_ok_of_imp {x : Except ε β} {f g : β → Except ε γ} {c : γ} (h : (x >>= f) = .ok c)
    (hfg : ∀ b, x = .ok b → f b = .ok c → g b = .ok c) : (x >>= g) = .ok c := by
  obtain ⟨b, hb, hf⟩ := bind_eq_ok_iff.mp h
  exact bind_eq_ok_iff.mpr ⟨b, hb, hfg b hb hf⟩

theorem require_of {p : Prop} [Decidable p] {cause : Invalid α} (h : p) :
    require p cause = .ok () := if_pos h

theorem require_of_not {p : Prop} [Decidable p] {cause : Invalid α} (h : ¬ p) :
    require p cause = .error (.invalid cause) := if_neg h

/-- A computation that is not accepted is refused. -/
theorem exists_error_iff {x : Checked α β} : (∃ e, x = .error e) ↔ ¬ ∃ b, x = .ok b := by
  cases x <;> simp

/-- A refusal, if it comes to one, is for a rule that the input breaks. -/
def OnlyInvalid (x : Checked α β) : Prop := ∀ e, x = .error e → ∃ cause, e = .invalid cause

namespace OnlyInvalid

theorem ok (b : β) : OnlyInvalid (.ok b : Checked α β) := by
  intro e h
  cases h

theorem refuse (cause : Invalid α) : OnlyInvalid (refuse cause : Checked α β) := by
  intro e h
  cases h
  exact ⟨cause, rfl⟩

theorem require (p : Prop) [Decidable p] (cause : Invalid α) : OnlyInvalid (require p cause) := by
  by_cases h : p
  · rw [require_of h]
    exact ok ()
  · rw [require_of_not h]
    exact refuse cause

theorem bind {x : Checked α β} {f : β → Checked α γ} (hx : OnlyInvalid x)
    (hf : ∀ b, x = .ok b → OnlyInvalid (f b)) : OnlyInvalid (x >>= f) := by
  intro e h
  cases x with
  | error e' =>
    have he : e' = e := Except.error.inj h
    exact hx e (by rw [he])
  | ok b => exact hf b rfl e h

end OnlyInvalid

/-- The input breaks no rule: there is a value, or a quotient that has none. -/
def Admissible (x : Checked α β) : Prop := ∀ cause, x ≠ .error (.invalid cause)

namespace Admissible

theorem of_ok {x : Checked α β} {b : β} (h : x = .ok b) : Admissible x := by
  intro cause hx
  cases h.symm.trans hx

theorem of_undefined {x : Checked α β} {cause : Undefined α} (h : x = .error (.undefined cause)) :
    Admissible x := by
  intro cause' hx
  cases h.symm.trans hx

/-- A chain that breaks no rule passes its first check, and breaks none after it. -/
theorem of_bind {x : Checked α β} {f : β → Checked α γ} (h : Admissible (x >>= f)) (hx : OnlyInvalid x) :
    ∃ b, x = .ok b ∧ Admissible (f b) := by
  cases x with
  | ok b => exact ⟨b, rfl, h⟩
  | error e =>
    obtain ⟨cause, rfl⟩ := hx e rfl
    exact absurd rfl (h cause)

end Admissible

theorem not_admissible_iff {x : Checked α β} : ¬ Admissible x ↔ ∃ cause, x = .error (.invalid cause) := by
  simp [Admissible]

/-- Two computations that end alike: with one value, both for a rule, or both for a quotient that has no
    value. -/
inductive EndAlike : Checked α β → Checked α β → Prop where
  | value (b : β) : EndAlike (.ok b) (.ok b)
  | invalid (c d : Invalid α) : EndAlike (.error (.invalid c)) (.error (.invalid d))
  | undefined (c d : Undefined α) : EndAlike (.error (.undefined c)) (.error (.undefined d))

theorem EndAlike.eq_ok {x y : Checked α β} {b : β} (h : EndAlike x y) (hy : y = .ok b) : x = .ok b := by
  cases h with
  | value => exact hy
  | invalid => cases hy
  | undefined => cases hy

/-- A step with one value for each element of a list gives the list of the values. -/
theorem mapM_eq_ok {f : β → Except ε γ} {g : β → γ} :
    ∀ {bs : List β}, (∀ b ∈ bs, f b = .ok (g b)) → bs.mapM f = .ok (bs.map g)
  | [], _ => rfl
  | b :: bs, h => by
    have hrest : bs.mapM f = .ok (bs.map g) := mapM_eq_ok fun c hc => h c (List.mem_cons_of_mem b hc)
    rw [List.mapM_cons, h b List.mem_cons_self, ok_bind, hrest, ok_bind, pure_eq_ok, List.map_cons]

end BatchMeans
