/- The arithmetic in which the statistics are written.

   Every statistic of the library is defined once, over any type of numbers with
   the operations below. Double precision is one such type
   (`Arith/Double.lean`); an exact ordered field is another. A definition
   therefore says in which order the operations are applied, and a law about it
   says for which numbers it holds. -/
namespace BatchMeans

/-- Numbers with the four operations, an order that can be decided, an absolute
    value, and a test for ordinary (neither infinite nor undefined) numbers. -/
class Arith (α : Type) where
  zero : α
  one : α
  natCast : Nat → α
  add : α → α → α
  sub : α → α → α
  mul : α → α → α
  div : α → α → α
  lt : α → α → Prop
  le : α → α → Prop
  decidableLT : ∀ x y, Decidable (lt x y)
  decidableLE : ∀ x y, Decidable (le x y)
  abs : α → α
  isFinite : α → Bool

/-- Numbers that also have square roots, and that can be rounded up to a count. -/
class RootArith (α : Type) extends Arith α where
  sqrt : α → α
  /-- The least natural number not below a finite number; `none` when it is not finite. -/
  ceilNat : α → Option Nat

namespace Arith
variable {α : Type} [Arith α]

/-! The usual signs stand for the operations of the class where a type has no operations of its own. -/

instance (priority := 50) instZero : Zero α := ⟨Arith.zero⟩
instance (priority := 50) instOne : One α := ⟨Arith.one⟩
instance (priority := 50) instNatCast : NatCast α := ⟨Arith.natCast⟩
instance (priority := 50) instAdd : Add α := ⟨Arith.add⟩
instance (priority := 50) instSub : Sub α := ⟨Arith.sub⟩
instance (priority := 50) instMul : Mul α := ⟨Arith.mul⟩
instance (priority := 50) instDiv : Div α := ⟨Arith.div⟩
instance (priority := 50) instLT : LT α := ⟨Arith.lt⟩
instance (priority := 50) instLE : LE α := ⟨Arith.le⟩
instance (priority := 50) instDecidableLT : DecidableLT α := Arith.decidableLT
instance (priority := 50) instDecidableLE : DecidableLE α := Arith.decidableLE

/-- A number is zero when it is neither below nor above zero; an undefined number is not zero. -/
def IsZero (x : α) : Prop := x ≤ 0 ∧ 0 ≤ x

instance instDecidableIsZero (x : α) : Decidable (IsZero x) :=
  inferInstanceAs (Decidable (x ≤ 0 ∧ 0 ≤ x))

/-- A number that is positive and finite. -/
def IsPositive (x : α) : Prop := 0 < x ∧ isFinite x = true

instance instDecidableIsPositive (x : α) : Decidable (IsPositive x) :=
  inferInstanceAs (Decidable (0 < x ∧ isFinite x = true))

/-- A natural number as a number of the arithmetic. -/
abbrev count (n : Nat) : α := (n : α)

/-- The quotient of two natural numbers, rounded as the arithmetic rounds a division. -/
def ratio (a b : Nat) : α := (a : α) / (b : α)

/-- The square of a number. -/
def square (x : α) : α := x * x

/-- The terms `f x` of a list, added from left to right starting at zero. -/
@[specialize] def sumBy {β : Type} (f : β → α) (xs : List β) : α :=
  xs.foldl (fun s x => s + f x) 0

theorem sumBy_nil {β : Type} (f : β → α) : sumBy f [] = 0 := rfl

/-- A sum over a longer list goes on from the sum over its beginning. -/
theorem sumBy_concat {β : Type} (f : β → α) (xs : List β) (x : β) :
    sumBy f (xs ++ [x]) = sumBy f xs + f x := by
  simp [sumBy]

/-- What holds of zero and is kept by adding a term holds of the sum. -/
theorem sumBy_induction {β : Type} {motive : α → Prop} {f : β → α} (xs : List β) (zero : motive 0)
    (add : ∀ s, motive s → ∀ x ∈ xs, motive (s + f x)) : motive (sumBy f xs) :=
  List.foldlRecOn xs _ zero add

end Arith
end BatchMeans
