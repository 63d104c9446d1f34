import Mathlib
import BatchMeans.Proofs.Arith.Ordered

/- The value of a double.

   A finite double is a sign, a significand and a power of two, in the one form
   that a number has (`Canonical`): the significand has fifty-three digits, or
   the power is the least. Packing keeps a number of this form, or takes it to
   infinity when its power is too large (`unpack_pack_finite`). Finite doubles are
   therefore ordered as their values are (`le_iff_value_le`). -/
namespace BatchMeans.Double
open Float.Model Float.Model.UnpackedFloat

/-! ## The form of a double -/

/-- The form of a significand and an exponent. -/
structure Canonical (m : ℕ) (e : ℤ) : Prop where
  lt : m < 2 ^ 53
  least_le : -1074 ≤ e
  full : e = -1074 ∨ 2 ^ 52 ≤ m

/-- Of a form that a double can have. -/
def IsDouble : UnpackedFloat → Prop
  | .finite _ m e _ => Canonical m e ∧ e ≤ 971
  | _ => True

/-- What the fields of a packed double stand for. -/
def ofFields (s : Sign) (exponent fraction : ℕ) : UnpackedFloat :=
  if exponent = 2047 then
    if fraction = 0 then .infinity s else .notANumber
  else if exponent = 0 then
    if h : fraction = 0 then .zero s else .finite s fraction (-1074) (Nat.pos_of_ne_zero h)
  else .finite s (2 ^ 52 + fraction) (exponent - 1075) (by omega)

theorem isDouble_ofFields (s : Sign) {ex ma : ℕ} (hex : ex < 2 ^ 11) (hma : ma < 2 ^ 52) :
    IsDouble (ofFields s ex ma) := by
  unfold ofFields
  split
  · split <;> trivial
  · split
    · split
      · trivial
      · exact ⟨⟨by omega, by omega, .inl rfl⟩, by omega⟩
    · exact ⟨⟨by omega, by omega, .inr (by omega)⟩, by omega⟩

theorem finite_congr {s : Sign} {m m' : ℕ} {e e' : ℤ} {h : 0 < m} {h' : 0 < m'} (hm : m = m')
    (he : e = e') : UnpackedFloat.finite s m e h = .finite s m' e' h' := by
  subst hm he
  rfl

/-! ## Packing -/

/-- The significand with the leading digit that is not stored. -/
theorem toNat_one_append (ma : BitVec 52) : (1#1 ++ ma).toNat = 2 ^ 52 + ma.toNat := by
  rw [BitVec.toNat_append, ← Nat.shiftLeft_add_eq_or_of_lt ma.isLt]
  simp [Nat.shiftLeft_eq]

theorem unpack_eq_ofFields (b : BitVec 64) : UnpackedFloat.unpack .binary64 b =
    ofFields (Sign.ofBitVec (@unpackSign .binary64 b)) (@unpackExponent .binary64 b).toNat
      (@unpackMantissa .binary64 b).toNat := by
  have hzero : ∀ ma : BitVec 52, ma = 0#52 ↔ ma.toNat = 0 := fun ma => by simp [← BitVec.toNat_inj]
  have hones : ∀ ex : BitVec 11, ex = -1#11 ↔ ex.toNat = 2047 := fun ex => by
    simp [← BitVec.toNat_inj]
  have hleast : ∀ ex : BitVec 11, ex = 0#11 ↔ ex.toNat = 0 := fun ex => by
    simp [← BitVec.toNat_inj]
  have hbias : ((Format.binary64.exponentBias : ℕ) : ℤ) + ((52 : ℕ) : ℤ) = 1075 := by decide
  unfold UnpackedFloat.unpack ofFields
  simp only [hzero, hones, hleast]
  split_ifs with _ _ hex
  · rfl
  · rfl
  · rfl
  · refine finite_congr rfl ?_
    rw [hex, hbias]
    rfl
  · refine finite_congr (toNat_one_append _) ?_
    rw [hbias]

theorem isDouble_unpack (b : BitVec 64) : IsDouble (UnpackedFloat.unpack .binary64 b) := by
  rw [unpack_eq_ofFields]
  exact isDouble_ofFields _ (BitVec.isLt _) (BitVec.isLt _)

theorem unpack_packComponents (s : Sign) (ex : BitVec 11) (ma : BitVec 52) :
    UnpackedFloat.unpack .binary64 (packComponents .binary64 s ex ma) =
      ofFields s ex.toNat ma.toNat := by
  rw [unpack_eq_ofFields, unpackSign_packComponents, Sign.ofBitVec_toBitVec,
    unpackExponent_packComponents, unpackMantissa_packComponents]

theorem ofFields_normal (s : Sign) {m : ℕ} {e : ℤ} (h : 0 < m) (hc : Canonical m e) (he : e ≤ 971)
    (hm : 2 ^ 52 ≤ m) :
    ofFields s ((e + 1075).toNat % 2 ^ 11) (m % 2 ^ 52) = .finite s m e h := by
  have hlt := hc.lt
  have hleast := hc.least_le
  rw [ofFields, if_neg (by omega), if_neg (by omega)]
  exact finite_congr (by omega) (by omega)

theorem ofFields_subnormal (s : Sign) {m : ℕ} (h : 0 < m) (hm : m < 2 ^ 52) :
    ofFields s 0 (m % 2 ^ 52) = .finite s m (-1074) h := by
  rw [Nat.mod_eq_of_lt hm, ofFields, if_neg (by omega), if_pos rfl, dif_neg h.ne']

/-- Packing keeps a number of the right form, unless its exponent is out of range. -/
theorem unpack_pack_finite (s : Sign) {m : ℕ} {e : ℤ} (h : 0 < m) (hc : Canonical m e) :
    UnpackedFloat.unpack .binary64 (UnpackedFloat.pack .binary64 (.finite s m e h)) =
      if 971 < e then .infinity s else .finite s m e h := by
  have hbias : e + ((Format.binary64.exponentBias : ℕ) : ℤ) +
      ((Format.binary64.mantissaBitsWithoutImplicit : ℕ) : ℤ) = e + 1075 := by
    rw [add_assoc]
    rfl
  have hnormal : m.log2 + 1 = Format.binary64.mantissaBits ↔ 2 ^ 52 ≤ m := by
    rw [← Nat.le_log2 h.ne']
    have hlog : m.log2 < 53 := (Nat.log2_lt h.ne').mpr hc.lt
    have hbits : Format.binary64.mantissaBits = 53 := rfl
    omega
  have hleast := hc.least_le
  unfold UnpackedFloat.pack
  simp only [hbias, hnormal]
  by_cases he : 971 < e
  · rw [if_pos (by omega), if_pos he, packedInfinity, unpack_packComponents]
    rfl
  rw [if_neg (by omega), if_neg he]
  by_cases hm : 2 ^ 52 ≤ m
  · rw [if_pos hm, unpack_packComponents, BitVec.toNat_ofNat, BitVec.toNat_ofNat]
    exact ofFields_normal s h hc (by omega) hm
  · obtain rfl := hc.full.resolve_right hm
    rw [if_neg hm, unpack_packComponents, BitVec.toNat_ofNat]
    exact ofFields_subnormal s h (by omega)

theorem unpack_pack_of_isDouble {u : UnpackedFloat} (h : IsDouble u) :
    UnpackedFloat.unpack .binary64 (UnpackedFloat.pack .binary64 u) = u := by
  cases u with
  | infinity s => exact unpack_packComponents s _ _
  | notANumber => exact unpack_packComponents .positive _ _
  | zero s => exact unpack_packComponents s _ _
  | finite s m e hm => rw [unpack_pack_finite s hm h.1, if_neg (by have := h.2; omega)]

/-! ## Values -/

/-- The value of a significand and an exponent. -/
def magnitude (m : ℕ) (e : ℤ) : ℚ := m * 2 ^ e

/-- The value of a finite number; the others have none, and get zero. -/
def exact : UnpackedFloat → ℚ
  | .finite .positive m e _ => magnitude m e
  | .finite .negative m e _ => -magnitude m e
  | _ => 0

theorem magnitude_nonneg (m : ℕ) (e : ℤ) : 0 ≤ magnitude m e := by
  unfold magnitude
  positivity

theorem magnitude_pos {m : ℕ} {e : ℤ} (h : 0 < m) : 0 < magnitude m e := by
  unfold magnitude
  positivity

@[simp] theorem magnitude_zero (e : ℤ) : magnitude 0 e = 0 := by simp [magnitude]

/-- A power of two moved from the exponent to the significand. -/
theorem magnitude_shift (m k : ℕ) (e : ℤ) : magnitude (m * 2 ^ k) e = magnitude m (e + k) := by
  unfold magnitude
  rw [zpow_add₀ two_ne_zero, zpow_natCast]
  push_cast
  ring

theorem magnitude_le_magnitude_iff {m m' : ℕ} {e : ℤ} : magnitude m e ≤ magnitude m' e ↔ m ≤ m' := by
  have hpos : (0 : ℚ) < 2 ^ e := by positivity
  rw [magnitude, magnitude, mul_le_mul_iff_left₀ hpos, Nat.cast_le]

theorem magnitude_lt_magnitude_iff {m m' : ℕ} {e : ℤ} : magnitude m e < magnitude m' e ↔ m < m' := by
  have hpos : (0 : ℚ) < 2 ^ e := by positivity
  rw [magnitude, magnitude, mul_lt_mul_iff_left₀ hpos, Nat.cast_lt]

/-- Numbers with more leading digits are larger. -/
theorem magnitude_lt_of_exponent_lt {m m' : ℕ} {e e' : ℤ} (hm : m < 2 ^ 53) (hm' : 2 ^ 52 ≤ m')
    (he : e < e') : magnitude m e < magnitude m' e' := by
  obtain ⟨k, rfl⟩ : ∃ k : ℕ, e' = e + k := ⟨(e' - e).toNat, by omega⟩
  rw [← magnitude_shift, magnitude_lt_magnitude_iff]
  calc m < 2 ^ 52 * 2 ^ 1 := hm
    _ ≤ m' * 2 ^ k := Nat.mul_le_mul hm' (Nat.pow_le_pow_right two_pos (by omega))

namespace Canonical
variable {m m' : ℕ} {e e' : ℤ}

theorem zero : Canonical 0 (-1074) := ⟨by decide, le_refl _, .inl rfl⟩

theorem magnitude_lt (h : Canonical m e) (h' : Canonical m' e') (he : e < e') :
    magnitude m e < magnitude m' e' :=
  magnitude_lt_of_exponent_lt h.lt (h'.full.resolve_left (by have := h.least_le; omega)) he

theorem magnitude_le_iff (h : Canonical m e) (h' : Canonical m' e') :
    magnitude m e ≤ magnitude m' e' ↔ e < e' ∨ e = e' ∧ m ≤ m' := by
  rcases lt_trichotomy e e' with he | rfl | he
  · simp [(magnitude_lt h h' he).le, he]
  · simp [magnitude_le_magnitude_iff]
  · simp [(magnitude_lt h' h he).not_ge, he.not_gt, he.ne']

end Canonical

/-- The three kinds of finite numbers. -/
theorem finite_cases {u : UnpackedFloat} (h : u.isFinite = true) : (∃ s, u = .zero s) ∨
    (∃ m e hm, u = .finite .positive m e hm) ∨ ∃ m e hm, u = .finite .negative m e hm := by
  rcases u with s | _ | s | ⟨_ | _, m, e, hm⟩
  · cases h
  · cases h
  · exact .inl ⟨s, rfl⟩
  · exact .inr (.inr ⟨m, e, hm, rfl⟩)
  · exact .inr (.inl ⟨m, e, hm, rfl⟩)

/-- Finite doubles are ordered as their values are. -/
theorem le_iff_exact_le {u v : UnpackedFloat} (hu : IsDouble u) (hv : IsDouble v)
    (fu : u.isFinite = true) (fv : v.isFinite = true) : u.le v = true ↔ exact u ≤ exact v := by
  unfold UnpackedFloat.le
  rcases finite_cases fu with ⟨s, rfl⟩ | ⟨m, e, hm, rfl⟩ | ⟨m, e, hm, rfl⟩ <;>
    rcases finite_cases fv with ⟨s', rfl⟩ | ⟨m', e', hm', rfl⟩ | ⟨m', e', hm', rfl⟩
  · exact iff_of_true rfl le_rfl
  · exact iff_of_true rfl (magnitude_nonneg m' e')
  · exact iff_of_false Bool.false_ne_true (neg_lt_zero.mpr (magnitude_pos hm')).not_ge
  · exact iff_of_false Bool.false_ne_true (magnitude_pos hm).not_ge
  · exact (DoubleOrder.then_isLE_iff e e' m m').trans (hu.1.magnitude_le_iff hv.1).symm
  · exact iff_of_false Bool.false_ne_true
      ((neg_lt_zero.mpr (magnitude_pos hm')).trans (magnitude_pos hm)).not_ge
  · exact iff_of_true rfl (neg_nonpos.mpr (magnitude_nonneg m e))
  · exact iff_of_true rfl
      ((neg_nonpos.mpr (magnitude_nonneg m e)).trans (magnitude_nonneg m' e'))
  · -- The order of two negative numbers is that of their magnitudes turned round.
    simp only [UnpackedFloat.compare, exact, neg_le_neg_iff, hv.1.magnitude_le_iff hu.1,
      Option.any_some, Ordering.isLE_swap, DoubleOrder.then_isGE_iff, eq_comm (a := e)]

theorem isFinite_neg (u : UnpackedFloat) : u.neg.isFinite = u.isFinite := by
  cases u <;> rfl

theorem exact_neg (u : UnpackedFloat) : exact u.neg = -exact u := by
  rcases u with _ | _ | _ | ⟨_ | _, m, e, hm⟩
  · exact neg_zero.symm
  · exact neg_zero.symm
  · exact neg_zero.symm
  · exact (neg_neg (magnitude m e)).symm
  · rfl

theorem IsDouble.neg {u : UnpackedFloat} (h : IsDouble u) : IsDouble u.neg := by
  cases u <;> exact h

theorem compare_swap (u v : UnpackedFloat) : v.compare u = (u.compare v).map Ordering.swap := by
  rcases u with (_ | _) | _ | (_ | _) | ⟨_ | _, m, e, hm⟩ <;>
    rcases v with (_ | _) | _ | (_ | _) | ⟨_ | _, m', e', hm'⟩ <;>
    simp [UnpackedFloat.compare, Ordering.swap_then, Int.compare_swap, Nat.compare_swap] <;> rfl

theorem parts_lt_iff (u v : UnpackedFloat) :
    u.lt v = true ↔ u.le v = true ∧ ¬ v.le u = true := by
  unfold UnpackedFloat.lt UnpackedFloat.le
  rw [compare_swap u v]
  rcases u.compare v with _ | _ | _ | _ <;> decide

theorem neg_compare_neg (u v : UnpackedFloat) : u.neg.compare v.neg = v.compare u := by
  rcases u with (_ | _) | _ | (_ | _) | ⟨_ | _, m, e, hm⟩ <;>
    rcases v with (_ | _) | _ | (_ | _) | ⟨_ | _, m', e', hm'⟩ <;>
    simp [UnpackedFloat.neg, UnpackedFloat.compare, Neg.neg, Ordering.swap_then, Int.compare_swap,
      Nat.compare_swap] <;> rfl

theorem neg_le_neg_iff (u v : UnpackedFloat) : u.neg.le v.neg = true ↔ v.le u = true := by
  unfold UnpackedFloat.le
  rw [neg_compare_neg]

/-! ## The doubles of the program -/

/-- The sign, significand and exponent of a double, or its class. -/
def parts (x : Float) : UnpackedFloat := x.toModel.unpack

/-- The value of a finite double. -/
def value (x : Float) : ℚ := exact (parts x)

variable {x y z : Float}

theorem isDouble_parts (x : Float) : IsDouble (parts x) := isDouble_unpack _

theorem le_iff_parts_le : x ≤ y ↔ (parts x).le (parts y) = true := DoubleOrder.le_iff x y

theorem le_iff_value_le (hx : x.isFinite = true) (hy : y.isFinite = true) :
    x ≤ y ↔ value x ≤ value y :=
  le_iff_parts_le.trans (le_iff_exact_le (isDouble_parts x) (isDouble_parts y) hx hy)

theorem lt_iff : x < y ↔ x ≤ y ∧ ¬ y ≤ x := by
  rw [DoubleOrder.lt_iff, DoubleOrder.le_iff, DoubleOrder.le_iff]
  exact parts_lt_iff (parts x) (parts y)

theorem lt_iff_value_lt (hx : x.isFinite = true) (hy : y.isFinite = true) :
    x < y ↔ value x < value y := by
  rw [lt_iff, le_iff_value_le hx hy, le_iff_value_le hy hx, lt_iff_le_not_ge]

end BatchMeans.Double
