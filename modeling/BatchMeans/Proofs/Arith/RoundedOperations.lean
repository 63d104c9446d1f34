import Mathlib.Data.Nat.Cast.Order.Field
import Mathlib.Tactic.FieldSimp
import BatchMeans.Proofs.Arith.Rounding

/- Sums, differences, products, quotients and counts round their exact values.

   Each operation on two finite doubles brings its exact result into the form of
   a significand with digits enough and rounds that, so it is a rounding of the
   exact result. What the program needs follows without a look at the
   significands: a result is positive when some positive double lies below the exact
   number, and exact when the exact number is a double. -/
namespace BatchMeans.Double
open Float.Model Float.Model.UnpackedFloat

/-! ## Operations on finite numbers -/

theorem brackets_exact (m : ℕ) (e : ℤ) :
    Brackets (magnitude m e) (ExtendedMantissa.ofMantissaAndAccuracy m .exact) e :=
  ⟨le_rfl, magnitude_lt_magnitude_iff.mpr (Nat.lt_succ_self m), fun _ => ⟨rfl, rfl⟩⟩

theorem rounds_self {u : UnpackedFloat} (hu : IsDouble u) (fu : u.isFinite = true) :
    Rounds (exact u) (settle u) := by
  intro y hy fy
  rw [settle, unpack_pack_of_isDouble hu, le_iff_exact_le hy hu fy fu, le_iff_exact_le hu hy fu fy]
  exact ⟨id, id⟩

/-- Moving the exponent down moves no value. -/
theorem magnitude_decreaseExponent (m : ℕ) {e t : ℤ} (ht : t ≤ e) :
    magnitude (decreaseExponent m e t).1 t = magnitude m e := by
  rw [decreaseExponent, Nat.shiftLeft_eq, magnitude_shift]
  congr 1
  omega

theorem log2_mul_two_pow {m : ℕ} (hm : m ≠ 0) : ∀ k : ℕ, (m * 2 ^ k).log2 = m.log2 + k
  | 0 => by simp
  | k + 1 => by
    rw [pow_succ, ← mul_assoc, mul_comm _ 2, Nat.log2_two_mul (by positivity), log2_mul_two_pow hm k]
    rfl

/-- Rounding a significand and an exponent rounds their value. -/
theorem rounds_round (s : Sign) {m : ℕ} (hm : m ≠ 0) (e : ℤ) :
    Rounds (signedValue s (magnitude m e)) (settle (UnpackedFloat.round .binary64 s m e)) := by
  -- Digits are first added until there are enough, which changes no value.
  obtain ⟨k, hk⟩ : ∃ k : ℕ, k = (e - max ((m.log2 : ℤ) + 1 + e - 53) (-1074)).toNat := ⟨_, rfl⟩
  have hround : UnpackedFloat.round .binary64 s m e =
      roundWithAccuracy .binary64 s (m * 2 ^ k) (e - k) .exact := by
    rw [← Nat.shiftLeft_eq, hk]
    rfl
  have hvalue : magnitude m e = magnitude (m * 2 ^ k) (e - k) := by
    rw [magnitude_shift, sub_add_cancel]
  rw [hround, hvalue]
  refine rounds_roundWithAccuracy s (brackets_exact _ _) ?_
  rw [log2_mul_two_pow hm]
  push_cast
  omega

theorem rounds_zero (s : Sign) : Rounds 0 (settle (.zero s)) :=
  rounds_self (u := .zero s) trivial rfl

theorem rounds_normalize (m e : ℤ) (z : Sign) :
    Rounds (m * 2 ^ e) (settle (UnpackedFloat.normalize .binary64 m e z)) := by
  unfold UnpackedFloat.normalize
  rcases lt_trichotomy m 0 with hm | rfl | hm
  · rw [Int.compare_eq_lt.mpr hm]
    have hvalue : (m : ℚ) * 2 ^ e = signedValue .negative (magnitude (-m).toNat e) := by
      have hcast : ((-m).toNat : ℤ) = -m := Int.toNat_of_nonneg (by omega)
      have hcast' : ((-m).toNat : ℚ) = -m := by exact_mod_cast hcast
      rw [signedValue, magnitude, hcast']
      ring
    rw [hvalue]
    exact rounds_round .negative (by omega) e
  · rw [Int.cast_zero, zero_mul]
    exact rounds_zero z
  · rw [Int.compare_eq_gt.mpr hm]
    have hvalue : (m : ℚ) * 2 ^ e = signedValue .positive (magnitude m.toNat e) := by
      have hcast : (m.toNat : ℤ) = m := Int.toNat_of_nonneg (by omega)
      have hcast' : (m.toNat : ℚ) = m := by exact_mod_cast hcast
      rw [signedValue, magnitude, hcast']
    rw [hvalue]
    exact rounds_round .positive (by omega) e

/-- Moving the exponent of a number down moves no value. -/
theorem exact_decreaseExponent (s : Sign) (m : ℕ) {e t : ℤ} (hm : 0 < m) (ht : t ≤ e) :
    ((s.apply (decreaseExponent m e t).1 : ℤ) : ℚ) * 2 ^ t = exact (.finite s m e hm) := by
  have hmag := magnitude_decreaseExponent m ht
  unfold magnitude at hmag
  cases s with
  | positive => simpa [exact, magnitude, Sign.apply] using hmag
  | negative => simpa [exact, magnitude, Sign.apply] using hmag

theorem rounds_addition {u v : UnpackedFloat} (hu : IsDouble u) (hv : IsDouble v)
    (fu : u.isFinite = true) (fv : v.isFinite = true) :
    Rounds (exact u + exact v) (settle (UnpackedFloat.add .binary64 u v)) := by
  rcases u with s | _ | s | ⟨s, m, e, hm⟩
  · cases fu
  · cases fu
  · rcases v with s' | _ | s' | ⟨s', m', e', hm'⟩
    · cases fv
    · cases fv
    · rw [show exact (.zero s) + exact (.zero s') = 0 from add_zero 0]
      cases s <;> cases s' <;> exact rounds_zero _
    · rw [show exact (.zero s) = 0 from rfl, zero_add]
      exact rounds_self hv fv
  · rcases v with s' | _ | s' | ⟨s', m', e', hm'⟩
    · cases fv
    · cases fv
    · rw [show exact (.zero s') = 0 from rfl, add_zero]
      exact rounds_self hu fu
    · rw [← exact_decreaseExponent s m hm (min_le_left e e'),
        ← exact_decreaseExponent s' m' hm' (min_le_right e e'), ← add_mul, ← Int.cast_add]
      exact rounds_normalize _ _ _

theorem apply_neg (s : Sign) (n : ℤ) : (-s).apply n = -s.apply n := by
  cases s
  · exact (neg_neg n).symm
  · rfl

/-- A difference is a sum with the second number negated. -/
theorem subtraction_eq (u v : UnpackedFloat) :
    UnpackedFloat.sub .binary64 u v = UnpackedFloat.add .binary64 u v.neg := by
  rcases u with (_ | _) | _ | (_ | _) | ⟨s, m, e, hm⟩ <;>
    rcases v with (_ | _) | _ | (_ | _) | ⟨s', m', e', hm'⟩ <;>
    try rfl
  -- Two finite numbers are left.
  simp only [UnpackedFloat.sub, UnpackedFloat.add, UnpackedFloat.neg, apply_neg, Int.sub_eq_add_neg]

theorem signedValue_mul (s s' : Sign) (v v' : ℚ) :
    signedValue (s * s') (v * v') = signedValue s v * signedValue s' v' := by
  cases s <;> cases s'
  · exact (neg_mul_neg v v').symm
  · exact (neg_mul v v').symm
  · exact (mul_neg v v').symm
  · rfl

theorem signedValue_div (s s' : Sign) (v v' : ℚ) :
    signedValue (s / s') (v / v') = signedValue s v / signedValue s' v' := by
  cases s <;> cases s'
  · exact (neg_div_neg_eq v v').symm
  · exact (neg_div v' v).symm
  · exact (div_neg v).symm
  · rfl

theorem magnitude_mul (m m' : ℕ) (e e' : ℤ) :
    magnitude (m * m') (e + e') = magnitude m e * magnitude m' e' := by
  unfold magnitude
  rw [zpow_add₀ two_ne_zero]
  push_cast
  ring

theorem exact_eq_signedValue (s : Sign) (m : ℕ) (e : ℤ) (hm : 0 < m) :
    exact (.finite s m e hm) = signedValue s (magnitude m e) := by
  cases s <;> rfl

/-- The product of two significands has digits enough. -/
theorem Canonical.mul_le {m m' : ℕ} {e e' : ℤ} (h : Canonical m e) (h' : Canonical m' e') (hm : 0 < m)
    (hm' : 0 < m') : e + e' ≤ max (((m * m').log2 : ℤ) + 1 + (e + e') - 53) (-1074) := by
  have hlog : 2 ^ 52 ≤ m * m' → 52 ≤ (m * m').log2 := (Nat.le_log2 (by positivity)).mpr
  rcases h.full with rfl | hfull
  · rcases h'.full with rfl | hfull'
    · omega
    · have := hlog (hfull'.trans (Nat.le_mul_of_pos_left m' hm))
      omega
  · have := hlog (hfull.trans (Nat.le_mul_of_pos_right m hm'))
    omega

theorem rounds_multiplication {u v : UnpackedFloat} (hu : IsDouble u) (hv : IsDouble v)
    (fu : u.isFinite = true) (fv : v.isFinite = true) :
    Rounds (exact u * exact v) (settle (UnpackedFloat.mul .binary64 u v)) := by
  rcases u with s | _ | s | ⟨s, m, e, hm⟩
  · cases fu
  · cases fu
  · rw [show exact (.zero s) = 0 from rfl, zero_mul]
    rcases v with s' | _ | s' | ⟨s', m', e', hm'⟩
    · cases fv
    · cases fv
    · exact rounds_zero _
    · exact rounds_zero _
  · rcases v with s' | _ | s' | ⟨s', m', e', hm'⟩
    · cases fv
    · cases fv
    · rw [show exact (.zero s') = 0 from rfl, mul_zero]
      exact rounds_zero _
    · rw [exact_eq_signedValue, exact_eq_signedValue, ← signedValue_mul, ← magnitude_mul]
      exact rounds_roundWithAccuracy (s * s') (brackets_exact _ _) (hu.1.mul_le hv.1 hm hm')

/-- A quotient of significands and its remainder bracket the quotient of the numbers. -/
theorem brackets_div {m m' k : ℕ} {e e' t : ℤ} (hm' : 0 < m') (hk : e = k + e' + t) :
    Brackets (magnitude m e / magnitude m' e') (ExtendedMantissa.ofMantissaAndAccuracy
      (m * 2 ^ k / m') (accuracyOfFraction (m * 2 ^ k % m') m')) t := by
  have hpos : (0 : ℚ) < m' := by exact_mod_cast hm'
  have hunit : (0 : ℚ) < 2 ^ t := by positivity
  have hvalue : magnitude m e / magnitude m' e' = ((m * 2 ^ k : ℕ) : ℚ) / m' * 2 ^ t := by
    unfold magnitude
    rw [hk, zpow_add₀ two_ne_zero, zpow_add₀ two_ne_zero, zpow_natCast]
    push_cast
    field_simp
  rw [hvalue]
  generalize m * 2 ^ k = n
  refine ⟨?_, ?_, fun hq => ?_⟩
  · rw [mantissa_ofMantissaAndAccuracy, magnitude]
    exact mul_le_mul_of_nonneg_right Nat.cast_div_le hunit.le
  · rw [mantissa_ofMantissaAndAccuracy, magnitude, mul_lt_mul_iff_left₀ hunit, div_lt_iff₀ hpos]
    exact_mod_cast Nat.lt_mul_of_div_lt (Nat.lt_succ_self _) hm'
  · -- The remainder of an exact quotient is zero.
    rw [mantissa_ofMantissaAndAccuracy, magnitude, mul_left_inj' hunit.ne', div_eq_iff hpos.ne'] at hq
    have hn : n = n / m' * m' := by exact_mod_cast hq
    have hrem : n % m' = 0 := by
      have := Nat.div_add_mod' n m'
      omega
    rw [hrem]
    exact ⟨rfl, rfl⟩

/-- The quotient of two significands has digits enough. -/
theorem div_le_target {m m' k : ℕ} {e e' t : ℤ} (hm : 0 < m) (hm' : 0 < m')
    (ht : t = min (e - e') (max ((m.log2 : ℤ) + 1 + e - (m'.log2 + 1 + e') - 53) (-1074)))
    (hk : e = k + e' + t) :
    t ≤ max (((m * 2 ^ k / m').log2 : ℤ) + 1 + t - 53) (-1074) := by
  rcases le_or_gt t (-1074) with hle | hgt
  · omega
  have hlogs : m'.log2 + 53 ≤ m.log2 + k := by omega
  have hquot : 2 ^ 52 ≤ m * 2 ^ k / m' := by
    rw [Nat.le_div_iff_mul_le hm']
    calc 2 ^ 52 * m' ≤ 2 ^ 52 * 2 ^ (m'.log2 + 1) := Nat.mul_le_mul_left _ Nat.lt_log2_self.le
      _ = 2 ^ (m'.log2 + 53) := by rw [← pow_add]; congr 1; omega
      _ ≤ 2 ^ (m.log2 + k) := Nat.pow_le_pow_right two_pos hlogs
      _ = 2 ^ m.log2 * 2 ^ k := pow_add _ _ _
      _ ≤ m * 2 ^ k := Nat.mul_le_mul_right _ (Nat.log2_self_le hm.ne')
  have hlog := (Nat.le_log2 (by omega)).mpr hquot
  omega

theorem rounds_division {u v : UnpackedFloat} (fu : u.isFinite = true) (fv : v.isFinite = true)
    (hne : exact v ≠ 0) : Rounds (exact u / exact v) (settle (UnpackedFloat.div .binary64 u v)) := by
  rcases v with s' | _ | s' | ⟨s', m', e', hm'⟩
  · cases fv
  · cases fv
  · exact absurd rfl hne
  rcases u with s | _ | s | ⟨s, m, e, hm⟩
  · cases fu
  · cases fu
  · rw [show exact (.zero s) = 0 from rfl, zero_div]
    exact rounds_zero _
  · obtain ⟨t, ht⟩ : ∃ t : ℤ,
      t = min (e - e') (max ((m.log2 : ℤ) + 1 + e - (m'.log2 + 1 + e') - 53) (-1074)) := ⟨_, rfl⟩
    have hk : e = ((e - e' - t).toNat : ℕ) + e' + t := by omega
    have hdiv : UnpackedFloat.div .binary64 (.finite s m e hm) (.finite s' m' e' hm') =
        roundWithAccuracy .binary64 (s / s') (m * 2 ^ (e - e' - t).toNat / m') t
          (accuracyOfFraction (m * 2 ^ (e - e' - t).toNat % m') m') := by
      rw [← Nat.shiftLeft_eq, ht]
      rfl
    rw [hdiv, exact_eq_signedValue, exact_eq_signedValue, ← signedValue_div]
    exact rounds_roundWithAccuracy _ (brackets_div hm' hk) (div_le_target hm hm' ht hk)

/-! ## Integers -/

/-- A significand of few digits can be written with more of them, in the form of a double. -/
theorem exists_canonical {m : ℕ} {e : ℤ} (hm : m < 2 ^ 53) (he : -1074 ≤ e) :
    ∃ m' e', Canonical m' e' ∧ e' ≤ e ∧ magnitude m' e' = magnitude m e := by
  rcases Nat.eq_zero_or_pos m with rfl | hpos
  · exact ⟨0, -1074, .zero, he, by simp⟩
  have hlog : m.log2 < 53 := (Nat.log2_lt hpos.ne').mpr hm
  obtain ⟨k, hk⟩ : ∃ k : ℕ, k = min (52 - m.log2) (e + 1074).toNat := ⟨_, rfl⟩
  refine ⟨m * 2 ^ k, e - k, ⟨?_, by omega, ?_⟩, by omega, ?_⟩
  · calc m * 2 ^ k < 2 ^ (m.log2 + 1) * 2 ^ k := Nat.mul_lt_mul_of_pos_right Nat.lt_log2_self (by positivity)
      _ = 2 ^ (m.log2 + 1 + k) := (pow_add _ _ _).symm
      _ ≤ 2 ^ 53 := Nat.pow_le_pow_right two_pos (by omega)
  · rcases le_or_gt (52 - m.log2) (e + 1074).toNat with h | h
    · refine .inr ?_
      calc 2 ^ 52 = 2 ^ m.log2 * 2 ^ k := by rw [← pow_add]; congr 1; omega
        _ ≤ m * 2 ^ k := Nat.mul_le_mul_right _ (Nat.log2_self_le hpos.ne')
    · exact .inl (by omega)
  · rw [magnitude_shift, sub_add_cancel]

/-- Some double has the value of a significand of few digits. -/
theorem exists_isDouble {m : ℕ} {e : ℤ} (hm : m < 2 ^ 53) (he : -1074 ≤ e) (he' : e ≤ 971) :
    ∃ u, IsDouble u ∧ u.isFinite = true ∧ exact u = magnitude m e := by
  obtain ⟨m', e', hc, hle, hvalue⟩ := exists_canonical hm he
  refine ⟨signed .positive m' e', ?_, ?_, (exact_signed_positive m' e').trans hvalue⟩
  · unfold signed
    split
    · trivial
    · exact ⟨hc, hle.trans he'⟩
  · unfold signed
    split <;> rfl

/-- What lies between two finite numbers is finite. -/
theorem isFinite_of_between {x u z : UnpackedFloat} (fx : x.isFinite = true) (fz : z.isFinite = true)
    (hxu : x.le u = true) (huz : u.le z = true) : u.isFinite = true := by
  rcases u with (_ | _) | _ | s | ⟨s, m, e, hm⟩
  · rcases finite_cases fx with ⟨_, rfl⟩ | ⟨_, _, _, rfl⟩ | ⟨_, _, _, rfl⟩ <;> cases hxu
  · rcases finite_cases fz with ⟨_, rfl⟩ | ⟨_, _, _, rfl⟩ | ⟨_, _, _, rfl⟩ <;> cases huz
  · rcases finite_cases fx with ⟨_, rfl⟩ | ⟨_, _, _, rfl⟩ | ⟨_, _, _, rfl⟩ <;> cases hxu
  · rfl
  · rfl

/-- A rounding of a double's value is that value. -/
theorem Rounds.exact_eq {v : ℚ} {u y : UnpackedFloat} (h : Rounds v u) (hu : IsDouble u) (hy : IsDouble y)
    (fy : y.isFinite = true) (hv : exact y = v) : u.isFinite = true ∧ exact u = v := by
  have hle := (h y hy fy).1 hv.le
  have hge := (h y hy fy).2 hv.ge
  have fu := isFinite_of_between fy fy hle hge
  rw [le_iff_exact_le hy hu fy fu] at hle
  rw [le_iff_exact_le hu hy fu fy] at hge
  exact ⟨fu, by linarith⟩

/-! ## Operations on doubles -/

variable {x y : Float}

theorem parts_add (x y : Float) :
    parts (x + y) = settle (UnpackedFloat.add .binary64 (parts x) (parts y)) := rfl

theorem parts_div (x y : Float) :
    parts (x / y) = settle (UnpackedFloat.div .binary64 (parts x) (parts y)) := rfl

theorem rounds_add (hx : x.isFinite = true) (hy : y.isFinite = true) :
    Rounds (value x + value y) (parts (x + y)) :=
  rounds_addition (isDouble_parts x) (isDouble_parts y) hx hy

theorem rounds_sub (hx : x.isFinite = true) (hy : y.isFinite = true) :
    Rounds (value x - value y) (parts (x - y)) := by
  have h := rounds_addition (isDouble_parts x) (isDouble_parts y).neg hx ((isFinite_neg _).trans hy)
  rw [exact_neg, ← subtraction_eq, ← sub_eq_add_neg] at h
  exact h

theorem rounds_mul (hx : x.isFinite = true) (hy : y.isFinite = true) :
    Rounds (value x * value y) (parts (x * y)) :=
  rounds_multiplication (isDouble_parts x) (isDouble_parts y) hx hy

theorem rounds_div (hx : x.isFinite = true) (hy : y.isFinite = true) (hne : value y ≠ 0) :
    Rounds (value x / value y) (parts (x / y)) :=
  rounds_division hx hy hne

/-- Integers of up to fifty-three digits are doubles. -/
theorem isFinite_toFloat {n : ℕ} (hn : n < 2 ^ 53) :
    n.toUInt64.toFloat.isFinite = true ∧ value n.toUInt64.toFloat = n := by
  obtain ⟨y, hy, fy, hvalue⟩ := exists_isDouble (e := 0) hn (by decide) (by decide)
  have hnat : n.toUInt64.toNat = n := by
    rw [Nat.toUInt64, UInt64.toNat_ofNat']
    omega
  have hparts : parts n.toUInt64.toFloat =
      settle (UnpackedFloat.normalize .binary64 n.toUInt64.toNat 0 .positive) := rfl
  have hround := rounds_normalize (n : ℤ) 0 .positive
  rw [Int.cast_natCast, zpow_zero, mul_one] at hround
  rw [hnat] at hparts
  rw [← hparts] at hround
  refine hround.exact_eq (isDouble_parts _) hy fy ?_
  rw [hvalue, magnitude, zpow_zero, mul_one]

theorem parts_one : parts (Float.ofBits 0x3FF0000000000000) = .finite .positive (2 ^ 52) (-52) (by decide) := by
  rfl

theorem ofNat_of_lt {n : ℕ} (hn : n < 2 ^ 53) :
    Float.ofNat n = n.toUInt64.toFloat * Float.ofBits 0x3FF0000000000000 := by
  have h : n < 2 ^ 53 ∧ 0 ≤ 22 := ⟨hn, by decide⟩
  unfold Float.ofNat
  show Float.ofScientific n false 0 = _
  unfold Float.ofScientific
  rw [dif_pos h]
  rfl

theorem parts_ofNat_of_le {n : ℕ} (hn : 2 ^ 53 ≤ n) :
    parts (Float.ofNat n) = settle (roundWithAccuracy .binary64 .positive (n * 2 ^ 53) (-53) .exact) := by
  have h : ¬ (n < 2 ^ 53 ∧ 0 ≤ 22) := by omega
  have hmodel : Float.ofNat n = Float.ofModel (Float.Model.ofScientific n 0) := by
    unfold Float.ofNat
    show Float.ofScientific n false 0 = _
    unfold Float.ofScientific
    rw [dif_neg h]
    rfl
  rw [hmodel]
  show settle (UnpackedFloat.ofScientific .binary64 n 0) = _
  unfold UnpackedFloat.ofScientific
  have hbits : (0 : ℤ) ≤ 2 ^ Format.binary64.exponentBits := by positivity
  rw [dif_neg (by omega), if_neg (by decide), if_neg (by omega), if_pos le_rfl]
  show settle (roundWithAccuracy .binary64 .positive ((n <<< 53) * 1) (-53 + 0) .exact) = _
  rw [Nat.shiftLeft_eq, mul_one, add_zero]

theorem rounds_ofNat (n : ℕ) : Rounds n (parts (Float.ofNat n)) := by
  rcases lt_or_ge n (2 ^ 53) with hn | hn
  · have hone : value (Float.ofBits 0x3FF0000000000000) = 1 := by
      rw [value, parts_one]
      norm_num [exact, magnitude]
    obtain ⟨hfinite, hvalue⟩ := isFinite_toFloat hn
    rw [ofNat_of_lt hn, ← mul_one (n : ℚ), ← hvalue, ← hone]
    exact rounds_mul hfinite rfl
  · have hvalue : (n : ℚ) = signedValue .positive (magnitude (n * 2 ^ 53) (-53)) := by
      rw [magnitude_shift, signedValue, magnitude]
      norm_num
    rw [parts_ofNat_of_le hn, hvalue]
    refine rounds_roundWithAccuracy .positive (brackets_exact _ _) ?_
    rw [log2_mul_two_pow (by omega)]
    omega

end BatchMeans.Double
