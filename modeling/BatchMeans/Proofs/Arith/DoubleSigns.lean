import BatchMeans.Proofs.Arith.RoundedOperations

/- Signs and zeros of doubles.

   A rounding keeps the side of every double, so a sum of positive numbers is not
   below its terms, a count is not below one, and the reciprocal of a positive
   number is not below the least positive double. These hold of infinite
   numbers as well, so no sum of numbers of one sign is zero. -/
namespace BatchMeans.Double
open Float.Model Float.Model.UnpackedFloat

variable {x y s : Float} {v : ℚ}

theorem le_of_rounds (h : Rounds v (parts x)) (hy : y.isFinite = true) (hv : value y ≤ v) : y ≤ x :=
  le_iff_parts_le.mpr ((h _ (isDouble_parts y) hy).1 hv)

theorem ge_of_rounds (h : Rounds v (parts x)) (hy : y.isFinite = true) (hv : v ≤ value y) : x ≤ y :=
  le_iff_parts_le.mpr ((h _ (isDouble_parts y) hy).2 hv)

/-- A rounding of a double's value has that value. -/
theorem value_of_rounds (h : Rounds v (parts x)) (hy : y.isFinite = true) (hv : value y = v) :
    x.isFinite = true ∧ value x = v :=
  h.exact_eq (isDouble_parts x) (isDouble_parts y) hy hv

theorem isFinite_of_le {a b : Float} (fa : a.isFinite = true) (fb : b.isFinite = true) (ha : a ≤ x)
    (hb : x ≤ b) : x.isFinite = true :=
  isFinite_of_between (x := parts a) (z := parts b) fa fb (le_iff_parts_le.mp ha)
    (le_iff_parts_le.mp hb)

/-- What lies between two doubles is rounded to a double between them. -/
theorem between_of_rounds {a b : Float} (h : Rounds v (parts x)) (fa : a.isFinite = true)
    (fb : b.isFinite = true) (ha : value a ≤ v) (hb : v ≤ value b) :
    x.isFinite = true ∧ value a ≤ value x ∧ value x ≤ value b := by
  have hle := le_of_rounds h fa ha
  have hge := ge_of_rounds h fb hb
  have fx := isFinite_of_le fa fb hle hge
  exact ⟨fx, (le_iff_value_le fa fx).mp hle, (le_iff_value_le fx fb).mp hge⟩

/-! ## Zero and one -/

/-- Integers of up to fifty-three digits are counted exactly. -/
theorem value_ofNat {n : ℕ} (hn : n < 2 ^ 53) :
    (Float.ofNat n).isFinite = true ∧ value (Float.ofNat n) = n := by
  obtain ⟨hfinite, hvalue⟩ := isFinite_toFloat hn
  exact value_of_rounds (rounds_ofNat n) hfinite hvalue

theorem isFinite_zero : (0 : Float).isFinite = true := (value_ofNat (n := 0) (by decide)).1

theorem value_zero : value 0 = 0 := by
  have h := (value_ofNat (n := 0) (by decide)).2
  rwa [Nat.cast_zero] at h

theorem isFinite_one : (1 : Float).isFinite = true := (value_ofNat (n := 1) (by decide)).1

theorem value_one : value 1 = 1 := by
  have h := (value_ofNat (n := 1) (by decide)).2
  rwa [Nat.cast_one] at h

theorem isZero_iff : Arith.IsZero x ↔ x.isFinite = true ∧ value x = 0 := by
  constructor
  · rintro ⟨hle, hge⟩
    have hx := isFinite_of_le isFinite_zero isFinite_zero hge hle
    have hle := (le_iff_value_le hx isFinite_zero).mp hle
    have hge := (le_iff_value_le isFinite_zero hx).mp hge
    rw [value_zero] at hle hge
    exact ⟨hx, le_antisymm hle hge⟩
  · rintro ⟨hx, hv⟩
    refine ⟨(le_iff_value_le hx isFinite_zero).mpr ?_, (le_iff_value_le isFinite_zero hx).mpr ?_⟩
    · rw [hv, value_zero]
    · rw [hv, value_zero]

theorem isZero_zero : Arith.IsZero (0 : Float) := isZero_iff.mpr ⟨isFinite_zero, value_zero⟩

theorem not_isZero_of_pos (h : 0 < x) : ¬ Arith.IsZero x := fun hzero => (lt_iff.mp h).2 hzero.1

theorem not_isZero_of_neg (h : x < 0) : ¬ Arith.IsZero x := fun hzero => (lt_iff.mp h).2 hzero.2

theorem pos_of_le (hy : 0 < y) (h : y ≤ x) : 0 < x := by
  obtain ⟨hle, hnot⟩ := lt_iff.mp hy
  exact lt_iff.mpr ⟨OrderedArith.le_trans hle h, fun hx => hnot (OrderedArith.le_trans h hx)⟩

theorem neg_of_le (hy : y < 0) (h : x ≤ y) : x < 0 := by
  obtain ⟨hle, hnot⟩ := lt_iff.mp hy
  exact lt_iff.mpr ⟨OrderedArith.le_trans h hle, fun hx => hnot (OrderedArith.le_trans hx h)⟩

/-! ## Sums -/

theorem value_nonneg (hx : x.isFinite = true) (h : 0 ≤ x) : 0 ≤ value x := by
  rw [← value_zero]
  exact (le_iff_value_le isFinite_zero hx).mp h

theorem value_nonpos (hx : x.isFinite = true) (h : x ≤ 0) : value x ≤ 0 := by
  rw [← value_zero]
  exact (le_iff_value_le hx isFinite_zero).mp h

theorem value_pos (hx : x.isFinite = true) (h : 0 < x) : 0 < value x := by
  rw [← value_zero]
  exact (lt_iff_value_lt isFinite_zero hx).mp h

theorem settle_infinity (s : Sign) : settle (.infinity s) = .infinity s := unpack_pack_of_isDouble trivial

/-- Finite, or infinite with a sign. -/
def FiniteOr (s : Sign) (u : UnpackedFloat) : Prop := u = .infinity s ∨ u.isFinite = true

theorem finiteOr_of_nonneg (h : 0 ≤ x) : FiniteOr .positive (parts x) := by
  rw [le_iff_parts_le] at h
  rcases hx : parts x with (_ | _) | _ | s | ⟨s, m, e, hm⟩ <;> rw [hx] at h
  · cases h
  · exact .inl rfl
  · cases h
  · exact .inr rfl
  · exact .inr rfl

theorem finiteOr_of_nonpos (h : x ≤ 0) : FiniteOr .negative (parts x) := by
  rw [le_iff_parts_le] at h
  rcases hx : parts x with (_ | _) | _ | s | ⟨s, m, e, hm⟩ <;> rw [hx] at h
  · exact .inl rfl
  · cases h
  · cases h
  · exact .inr rfl
  · exact .inr rfl

/-- With an infinite term, a sum of two such numbers is infinite. -/
theorem FiniteOr.add {s : Sign} {u w : UnpackedFloat} (hu : FiniteOr s u) (hw : FiniteOr s w)
    (h : ¬ (u.isFinite = true ∧ w.isFinite = true)) : UnpackedFloat.add .binary64 u w = .infinity s := by
  rcases hu with rfl | fu
  · rcases hw with rfl | fw
    · cases s <;> rfl
    · rcases finite_cases fw with ⟨_, rfl⟩ | ⟨_, _, _, rfl⟩ | ⟨_, _, _, rfl⟩ <;> rfl
  · rcases hw with rfl | fw
    · rcases finite_cases fu with ⟨_, rfl⟩ | ⟨_, _, _, rfl⟩ | ⟨_, _, _, rfl⟩ <;> rfl
    · exact absurd ⟨fu, fw⟩ h

/-- A sum of numbers that are not negative is not below its last term. -/
theorem le_add_of_nonneg (hs : 0 ≤ s) (hx : 0 ≤ x) : x ≤ s + x := by
  by_cases h : s.isFinite = true ∧ x.isFinite = true
  · refine le_of_rounds (rounds_add h.1 h.2) h.2 ?_
    linarith [value_nonneg h.1 hs]
  · rw [le_iff_parts_le, parts_add, (finiteOr_of_nonneg hs).add (finiteOr_of_nonneg hx) h, settle_infinity]
    rcases finiteOr_of_nonneg hx with hinf | fx
    · rw [hinf]
      rfl
    · exact le_infinity fx

/-- A sum of numbers that are not positive is not above its last term. -/
theorem add_le_of_nonpos (hs : s ≤ 0) (hx : x ≤ 0) : s + x ≤ x := by
  by_cases h : s.isFinite = true ∧ x.isFinite = true
  · refine ge_of_rounds (rounds_add h.1 h.2) h.2 ?_
    linarith [value_nonpos h.1 hs]
  · rw [le_iff_parts_le, parts_add, (finiteOr_of_nonpos hs).add (finiteOr_of_nonpos hx) h, settle_infinity]
    rcases finiteOr_of_nonpos hx with hinf | fx
    · rw [hinf]
      rfl
    · rcases finite_cases fx with ⟨_, hp⟩ | ⟨_, _, _, hp⟩ | ⟨_, _, _, hp⟩ <;> rw [hp] <;> rfl

theorem add_pos (hs : 0 ≤ s) (hx : 0 < x) : 0 < s + x :=
  pos_of_le hx (le_add_of_nonneg hs (lt_iff.mp hx).1)

theorem add_neg (hs : s ≤ 0) (hx : x < 0) : s + x < 0 :=
  neg_of_le hx (add_le_of_nonpos hs (lt_iff.mp hx).1)

/-! ## Counts and reciprocals -/

theorem one_le_count {n : ℕ} (hn : 1 ≤ n) : 1 ≤ (Arith.count n : Float) := by
  refine le_of_rounds (rounds_ofNat n) isFinite_one ?_
  rw [value_one]
  exact_mod_cast hn

theorem zero_lt_one : (0 : Float) < 1 := by
  rw [lt_iff_value_lt isFinite_zero isFinite_one, value_zero, value_one]
  exact one_pos

theorem count_pos {n : ℕ} (hn : 1 ≤ n) : 0 < (Arith.count n : Float) :=
  pos_of_le zero_lt_one (one_le_count hn)

/-- The value of a double times the least positive one is at most one. -/
theorem magnitude_mul_least_le {m : ℕ} {e : ℤ} (hm : m < 2 ^ 53) (he : e ≤ 971) :
    magnitude m e * magnitude 1 (-1074) ≤ 1 := by
  have hm' : (m : ℚ) ≤ 2 ^ (53 : ℤ) := by exact_mod_cast hm.le
  rw [← magnitude_mul, mul_one, magnitude]
  calc (m : ℚ) * 2 ^ (e + -1074) ≤ 2 ^ (53 : ℤ) * 2 ^ (-103 : ℤ) :=
        mul_le_mul hm' (zpow_le_zpow_right₀ one_le_two (by omega)) (by positivity) (by positivity)
    _ = 2 ^ (-50 : ℤ) := by rw [← zpow_add₀ two_ne_zero]; norm_num
    _ ≤ 1 := zpow_le_one_of_nonpos₀ one_le_two (by norm_num)

/-- The least positive double. -/
def least : UnpackedFloat := .finite .positive 1 (-1074) one_pos

theorem isDouble_least : IsDouble least := ⟨⟨by decide, le_rfl, .inl rfl⟩, by decide⟩

/-- The reciprocal of a positive double is not below the least positive double. -/
theorem one_div_pos (hx : x.isFinite = true) (h : 0 < x) : 0 < 1 / x := by
  have hv := value_pos hx h
  have hround := rounds_div isFinite_one hx hv.ne'
  rw [value_one] at hround
  obtain ⟨m, e, hc, he, hvalue⟩ := exists_magnitude (isDouble_parts x) hv.le
  have hle : exact least ≤ 1 / value x := by
    rw [le_div_iff₀ hv, value, hvalue, mul_comm]
    exact magnitude_mul_least_le hc.lt he
  have hleast := (hround least isDouble_least rfl).1 hle
  refine lt_iff.mpr ⟨?_, fun hneg => ?_⟩
  · exact le_iff_parts_le.mpr (DoubleOrder.le_trans (b := least) rfl hleast)
  · have := DoubleOrder.le_trans hleast (le_iff_parts_le.mp hneg)
    cases this

theorem one_div_neg (hx : x.isFinite = true) (h : x < 0) : 1 / x < 0 := by
  have hv : value x < 0 := by
    rw [← value_zero]
    exact (lt_iff_value_lt hx isFinite_zero).mp h
  have hround := rounds_div isFinite_one hx hv.ne
  rw [value_one] at hround
  obtain ⟨m, e, hc, he, hvalue⟩ := exists_magnitude (isDouble_parts x).neg
    (by rw [exact_neg]; exact (neg_pos.mpr hv).le)
  have hle : 1 / value x ≤ exact least.neg := by
    have hone := magnitude_mul_least_le hc.lt he
    rw [← hvalue, exact_neg] at hone
    rw [div_le_iff_of_neg hv, exact_neg, value, neg_mul, ← mul_neg, mul_comm]
    exact hone
  have hleast := (hround least.neg isDouble_least.neg rfl).2 hle
  refine lt_iff.mpr ⟨?_, fun hpos => ?_⟩
  · exact le_iff_parts_le.mpr (DoubleOrder.le_trans (b := least.neg) hleast rfl)
  · have := DoubleOrder.le_trans (le_iff_parts_le.mp hpos) hleast
    cases this

/-! ## Zeros -/

theorem isZero_of_rounds (h : Rounds 0 (parts x)) : Arith.IsZero x :=
  isZero_iff.mpr (value_of_rounds h isFinite_zero value_zero)

theorem isZero_add (hx : Arith.IsZero x) (hy : Arith.IsZero y) : Arith.IsZero (x + y) := by
  obtain ⟨fx, vx⟩ := isZero_iff.mp hx
  obtain ⟨fy, vy⟩ := isZero_iff.mp hy
  have h := rounds_add fx fy
  rw [vx, vy, add_zero] at h
  exact isZero_of_rounds h

theorem isZero_sumBy {β : Type} {f : β → Float} (xs : List β) (h : ∀ x ∈ xs, Arith.IsZero (f x)) :
    Arith.IsZero (Arith.sumBy f xs) := by
  apply Arith.sumBy_induction xs isZero_zero
  intro s hs x hx
  exact isZero_add hs (h x hx)

theorem isZero_mul (hx : Arith.IsZero x) (hy : Arith.IsZero y) : Arith.IsZero (x * y) := by
  obtain ⟨fx, vx⟩ := isZero_iff.mp hx
  obtain ⟨fy, vy⟩ := isZero_iff.mp hy
  have h := rounds_mul fx fy
  rw [vx, zero_mul] at h
  exact isZero_of_rounds h

/-- Zero over a positive number is zero, also when that is infinite. -/
theorem isZero_div (hx : Arith.IsZero x) (hy : 0 < y) : Arith.IsZero (x / y) := by
  obtain ⟨fx, vx⟩ := isZero_iff.mp hx
  rcases finiteOr_of_nonneg (lt_iff.mp hy).1 with hinf | fy
  · refine isZero_of_rounds ?_
    rw [parts_div, hinf]
    rcases finite_cases (u := parts x) fx with ⟨_, hp⟩ | ⟨_, _, _, hp⟩ | ⟨_, _, _, hp⟩ <;> rw [hp] <;>
      exact rounds_zero _
  · have vy : value y ≠ 0 := fun hv => not_isZero_of_pos hy (isZero_iff.mpr ⟨fy, hv⟩)
    have h := rounds_div fx fy vy
    rw [vx, zero_div] at h
    exact isZero_of_rounds h

/-! ## Results that are not finite -/

theorem parts_of_isZero (h : Arith.IsZero x) : ∃ s, parts x = .zero s := by
  obtain ⟨fx, vx⟩ := isZero_iff.mp h
  rcases finite_cases (u := parts x) fx with hz | ⟨m, e, hm, hp⟩ | ⟨m, e, hm, hp⟩
  · exact hz
  · rw [value, hp] at vx
    exact absurd vx (magnitude_pos hm).ne'
  · rw [value, hp] at vx
    exact absurd vx (neg_lt_zero.mpr (magnitude_pos hm)).ne

theorem settle_notANumber : settle .notANumber = .notANumber := unpack_pack_of_isDouble trivial

theorem isFinite_settle_eq_false {u : UnpackedFloat} (h : u = .notANumber ∨ ∃ s, u = .infinity s) :
    (settle u).isFinite = false := by
  rcases h with rfl | ⟨s, rfl⟩
  · rw [settle_notANumber]
    rfl
  · rw [settle_infinity]
    rfl

/-- A quotient by zero is not finite. -/
theorem isFinite_div_isZero (x : Float) (hy : Arith.IsZero y) : (x / y).isFinite = false := by
  obtain ⟨s, hs⟩ := parts_of_isZero hy
  have hclass : (settle (UnpackedFloat.div .binary64 (parts x) (.zero s))).isFinite = false := by
    apply isFinite_settle_eq_false
    rcases parts x with s' | _ | s' | ⟨s', m, e, hm⟩
    · exact .inr ⟨_, rfl⟩
    · exact .inl rfl
    · exact .inl rfl
    · exact .inr ⟨_, rfl⟩
  rw [← hs, ← parts_div] at hclass
  exact hclass

/-- Nor is a product with a number that is not. -/
theorem isFinite_mul_eq_false (x : Float) (hy : y.isFinite = false) : (x * y).isFinite = false := by
  have hclass : (settle (UnpackedFloat.mul .binary64 (parts x) (parts y))).isFinite = false := by
    apply isFinite_settle_eq_false
    have hy' : (parts y).isFinite = false := hy
    clear hy
    rcases hp : parts y with s' | _ | s' | ⟨s', m', e', hm'⟩ <;> rw [hp] at hy'
    · rcases parts x with s | _ | s | ⟨s, m, e, hm⟩
      · exact .inr ⟨_, rfl⟩
      · exact .inl rfl
      · exact .inl rfl
      · exact .inr ⟨_, rfl⟩
    · rcases parts x with s | _ | s | ⟨s, m, e, hm⟩ <;> exact .inl rfl
    · cases hy'
    · cases hy'
  exact hclass

theorem exponent_of_ofFields {s : Sign} {ex ma : ℕ} (h : (ofFields s ex ma).isFinite = false) : ex = 2047 := by
  by_contra hne
  rw [ofFields, if_neg hne] at h
  split at h
  · split at h <;> cases h
  · cases h

theorem toNat_unpackExponent (b : BitVec 64) : (@unpackExponent .binary64 b).toNat = b.toNat / 2 ^ 52 % 2 ^ 11 := by
  rw [unpackExponent_def, BitVec.extractLsb'_toNat, Nat.shiftRight_eq_div_pow]

/-- A number that is not finite has no ceiling. -/
theorem ceilNat_eq_none (hx : x.isFinite = false) : RootArith.ceilNat x = none := by
  have hfields : (ofFields (Sign.ofBitVec (@unpackSign .binary64 x.toModel.toBits.toBitVec))
      (@unpackExponent .binary64 x.toModel.toBits.toBitVec).toNat
      (@unpackMantissa .binary64 x.toModel.toBits.toBitVec).toNat).isFinite = false := by
    rw [← unpack_eq_ofFields]
    exact hx
  have hexp : x.toBits.toNat / 2 ^ 52 % 2 ^ 11 = 2047 :=
    (toNat_unpackExponent _).symm.trans (exponent_of_ofFields hfields)
  show (Decimal.Binary64.ofBits x.toBits.toNat).ceilNat = none
  unfold Decimal.Binary64.ofBits
  simp only [Nat.pow_eq, hexp, if_true]
  split <;> rfl

end BatchMeans.Double
