import BatchMeans.Proofs.Checked
import BatchMeans.Series.SampleSize

/- Steps that a machine may be unable to take.

   The operations of the library are total: a difference of counts stops at
   zero, a quotient by zero is zero, and cutting a list into blocks of no elements
   gives none. On a machine each of these stops the program. A guarded run is a
   computation in which such a step is taken only where its condition is met, and
   the run is trapped otherwise. `Computes g c` says that the guarded run `g`
   comes to no trap and ends as the computation `c` does, refusals included; it
   has a closure lemma for each way of putting runs together. -/
namespace BatchMeans

/-- Why a step cannot be taken. -/
inductive Trap where
  /-- A difference of counts lies below zero. -/
  | underflow
  /-- A count grows beyond what can be counted. -/
  | overflow
  | divisionByZero
  /-- A position lies outside a list. -/
  | outOfRange
  /-- A list is cut into blocks of no elements. -/
  | emptyBlocks
  /-- A variance is taken of fewer than two values. -/
  | tooFewValues
  /-- A distribution is asked without a degree of freedom, or for a probability that is not
      between one half and one. -/
  | offDomain

/-- How a guarded run ends early. -/
inductive Halt (ε : Type) where
  | refused (e : ε)
  | trapped (t : Trap)

/-- A run whose steps are guarded. -/
abbrev Guarded (ε β : Type) := Except (Halt ε) β

namespace Guarded
variable {ε β : Type}

/-- A computation that takes none of the guarded steps. -/
def plain (c : Except ε β) : Guarded ε β := c.mapError .refused

/-- A step that can be taken only under a condition. -/
def taking (p : Prop) [Decidable p] (t : Trap) (b : β) : Guarded ε β :=
  if p then .ok b else .error (.trapped t)

/-! ## The steps -/

def difference (a b : Nat) : Guarded ε Nat := taking (b ≤ a) .underflow (a - b)

def quotient (a b : Nat) : Guarded ε Nat := taking (0 < b) .divisionByZero (a / b)

def product (a b : Nat) : Guarded ε Nat := taking (a * b < SampleSize.countLimit) .overflow (a * b)

/-- The count after `k`, where counts do not exceed `limit`. -/
def successor (limit k : Nat) : Guarded ε Nat := taking (k + 1 ≤ limit) .overflow (k + 1)

/-- The element at a position. -/
def entry (xs : List β) (i : Nat) : Guarded ε β :=
  match xs[i]? with
  | some x => .ok x
  | none => .error (.trapped .outOfRange)

/-- What is left of a list from a position on. -/
def dropFirst (k : Nat) (xs : List β) : Guarded ε (List β) :=
  taking (k ≤ xs.length) .outOfRange (xs.drop k)

def cut (q : Nat) (xs : List β) : Guarded ε (List (List β)) :=
  taking (0 < q) .emptyBlocks (Series.blocks q xs)

theorem taking_eq {p : Prop} [Decidable p] (t : Trap) (b : β) (h : p) :
    (taking p t b : Guarded ε β) = .ok b := if_pos h

theorem difference_eq {a b : Nat} (h : b ≤ a) : (difference a b : Guarded ε Nat) = .ok (a - b) :=
  taking_eq _ _ h

theorem quotient_eq (a : Nat) {b : Nat} (h : 0 < b) : (quotient a b : Guarded ε Nat) = .ok (a / b) :=
  taking_eq _ _ h

theorem product_eq {a b : Nat} (h : a * b < SampleSize.countLimit) :
    (product a b : Guarded ε Nat) = .ok (a * b) := taking_eq _ _ h

theorem successor_eq {limit k : Nat} (h : k + 1 ≤ limit) :
    (successor limit k : Guarded ε Nat) = .ok (k + 1) := taking_eq _ _ h

theorem entry_eq {xs : List β} {i : Nat} {x : β} (h : xs[i]? = some x) :
    (entry xs i : Guarded ε β) = .ok x := by
  rw [entry, h]

theorem dropFirst_eq {k : Nat} {xs : List β} (h : k ≤ xs.length) :
    (dropFirst k xs : Guarded ε (List β)) = .ok (xs.drop k) := taking_eq _ _ h

theorem cut_eq {q : Nat} (xs : List β) (h : 0 < q) :
    (cut q xs : Guarded ε (List (List β))) = .ok (Series.blocks q xs) := taking_eq _ _ h

/-- The value, or nothing where the run is refused. A trap is not made up for. -/
def value? (g : Guarded ε β) : Guarded ε (Option β) :=
  match g with
  | .ok b => .ok (some b)
  | .error (.refused _) => .ok none
  | .error (.trapped t) => .error (.trapped t)

end Guarded

/-- The run comes to no trap and ends as the computation does. -/
def Computes {ε β : Type} (g : Guarded ε β) (c : Except ε β) : Prop := g = Guarded.plain c

namespace Computes
open Guarded
variable {ε β γ : Type} {g : Guarded ε β} {c : Except ε β}

theorem not_trapped (h : Computes g c) (t : Trap) : g ≠ .error (.trapped t) := by
  intro ht
  rw [h] at ht
  cases c with
  | ok b => cases ht
  | error e => cases ht

theorem ok (b : β) : Computes (.ok b : Guarded ε β) (.ok b) := rfl

theorem plain (c : Except ε β) : Computes (Guarded.plain c) c := rfl

theorem bind {f : β → Guarded ε γ} {f' : β → Except ε γ} (h : Computes g c)
    (hf : ∀ b, c = .ok b → Computes (f b) (f' b)) : Computes (g >>= f) (c >>= f') := by
  rw [h]
  cases c with
  | ok b => exact hf b rfl
  | error e => rfl

/-- A computation without guarded steps may come first. -/
theorem check {f : β → Guarded ε γ} {f' : β → Except ε γ}
    (hf : ∀ b, c = .ok b → Computes (f b) (f' b)) : Computes (Guarded.plain c >>= f) (c >>= f') :=
  bind (plain c) hf

/-- A step that can be taken goes on with its result. -/
theorem step {f : β → Guarded ε γ} {c' : Except ε γ} {b : β} (hb : g = .ok b)
    (hf : Computes (f b) c') : Computes (g >>= f) c' := by
  rw [hb]
  exact hf

theorem ite {p : Prop} [Decidable p] {g' : Guarded ε β} {c' : Except ε β}
    (h : p → Computes g c) (h' : ¬ p → Computes g' c') :
    Computes (if p then g else g') (if p then c else c') := by
  by_cases hp : p
  · rw [if_pos hp, if_pos hp]
    exact h hp
  · rw [if_neg hp, if_neg hp]
    exact h' hp

theorem map (h : Computes g c) (f : β → γ) :
    Computes (g >>= fun b => .ok (f b)) (c.map f) := by
  rw [h]
  cases c with
  | ok b => rfl
  | error e => rfl

theorem value? (h : Computes g c) : Guarded.value? g = .ok c.toOption := by
  rw [h]
  cases c with
  | ok b => rfl
  | error e => rfl

end Computes
end BatchMeans
