import Mathlib.Data.Prod.Lex
import Mathlib.Order.Basic
import BatchMeans.Arith.Double

/- The laws of order that hold in double precision as well as in exact
   arithmetic.

   The order of the doubles is not total, as an undefined number is neither
   below nor above anything, and rounding leaves few laws of algebra. What a
   comparison against a limit needs is transitivity, that below implies not
   above, and that one is its own absolute value. Doubles have these
   (`instOrderedArithFloat`) because a comparison only looks at the places of
   the two numbers in one linear order (`le_iff_place`). -/
namespace BatchMeans

/-- An arithmetic whose order is transitive and extends its strict order. -/
class OrderedArith (α : Type) [Arith α] : Prop where
  le_trans {a b c : α} : a ≤ b → b ≤ c → a ≤ c
  le_of_lt {a b : α} : a < b → a ≤ b
  abs_one : Arith.abs (1 : α) = 1

/-! ## The order of the doubles -/

namespace DoubleOrder
open Float.Model Float.Model.UnpackedFloat

/-- The place of a double in the order: its class, then its exponent, then its
    significand. An undefined number has no place. -/
def place : UnpackedFloat → Option (ℤ ×ₗ ℤ ×ₗ ℤ)
  | .notANumber => none
  | .infinity .negative => some (toLex (-2, toLex (0, 0)))
  | .finite .negative m e _ => some (toLex (-1, toLex (-e, -m)))
  | .zero _ => some (toLex (0, toLex (0, 0)))
  | .finite .positive m e _ => some (toLex (1, toLex (e, m)))
  | .infinity .positive => some (toLex (2, toLex (0, 0)))

theorem then_isLE_iff (e e' : ℤ) (m m' : ℕ) :
    ((compare e e').then (compare m m')).isLE = true ↔ e < e' ∨ e = e' ∧ m ≤ m' := by
  rcases lt_trichotomy e e' with h | h | h
  · simp [Int.compare_eq_lt.mpr h, h]
  · simp [h, Nat.isLE_compare]
  · simp [Int.compare_eq_gt.mpr h, h.not_gt, h.ne']

theorem then_isGE_iff (e e' : ℤ) (m m' : ℕ) :
    ((compare e e').then (compare m m')).isGE = true ↔ e' < e ∨ e = e' ∧ m' ≤ m := by
  rcases lt_trichotomy e e' with h | h | h
  · simp [Int.compare_eq_lt.mpr h, h.not_gt, h.ne]
  · simp [h, Nat.isGE_compare]
  · simp [Int.compare_eq_gt.mpr h, h]

theorem le_iff_place (a b : UnpackedFloat) :
    a.le b = true ↔ ∃ x y, place a = some x ∧ place b = some y ∧ x ≤ y := by
  unfold UnpackedFloat.le
  -- The classes settle all pairs but two finite numbers of one sign.
  rcases a with (_ | _) | _ | (_ | _) | ⟨_ | _, m, e, hm⟩ <;>
    rcases b with (_ | _) | _ | (_ | _) | ⟨_ | _, m', e', hm'⟩ <;>
    dsimp only [UnpackedFloat.compare, place] <;>
    simp [Prod.Lex.toLex_le_toLex, then_isLE_iff, then_isGE_iff, Ordering.isLE_swap] <;> rfl

theorem le_trans {a b c : UnpackedFloat} (hab : a.le b = true) (hbc : b.le c = true) :
    a.le c = true := by
  obtain ⟨x, y, hx, hy, hxy⟩ := (le_iff_place a b).mp hab
  obtain ⟨y', z, hy', hz, hyz⟩ := (le_iff_place b c).mp hbc
  obtain rfl : y = y' := Option.some.inj (hy.symm.trans hy')
  exact (le_iff_place a c).mpr ⟨x, z, hx, hz, hxy.trans hyz⟩

theorem le_of_lt {a b : UnpackedFloat} (h : a.lt b = true) : a.le b = true := by
  have hlt : a.compare b = some .lt := by simpa [UnpackedFloat.lt] using h
  rw [UnpackedFloat.le, hlt]
  rfl

theorem le_iff (x y : Float) : x ≤ y ↔ x.toModel.unpack.le y.toModel.unpack = true :=
  decide_eq_true_iff

theorem lt_iff (x y : Float) : x < y ↔ x.toModel.unpack.lt y.toModel.unpack = true :=
  decide_eq_true_iff

end DoubleOrder

instance instOrderedArithFloat : OrderedArith Float where
  le_trans := by
    intro a b c hab hbc
    rw [DoubleOrder.le_iff] at *
    exact DoubleOrder.le_trans hab hbc
  le_of_lt := by
    intro a b h
    rw [DoubleOrder.le_iff]
    rw [DoubleOrder.lt_iff] at h
    exact DoubleOrder.le_of_lt h
  abs_one := by decide

end BatchMeans
