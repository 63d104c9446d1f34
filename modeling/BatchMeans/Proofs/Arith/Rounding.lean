import BatchMeans.Proofs.Arith.DoubleValue

/- The operations on doubles round their exact results.

   `Rounds v u` says that no finite double lies strictly between the exact
   number `v` and the result `u`, an infinite result included. That is all that is used of the
   rounding: whether a result is zero, positive or exact follows from it. A
   rounding starts from a significand with two residual digits, which bracket the
   exact number (`Brackets`). Dropping a digit keeps the bracket, so the rounded
   significand is one of the two around the number, and doubles have no digits
   between these two (`Faithful`). -/
namespace BatchMeans.Double
open Float.Model Float.Model.UnpackedFloat

/-! ## Brackets -/

/-- A significand with its residual digits, next below a number. -/
structure Brackets (v : ℚ) (em : ExtendedMantissa) (e : ℤ) : Prop where
  le : magnitude em.mantissa e ≤ v
  lt : v < magnitude (em.mantissa + 1) e
  exact : v = magnitude em.mantissa e → em.roundBit = false ∧ em.stickyBit = false

namespace Brackets
variable {v : ℚ} {em : ExtendedMantissa} {e : ℤ}

/-- Dropping a digit keeps the bracket. -/
theorem shiftRightOne (h : Brackets v em e) : Brackets v em.shiftRightOne (e + 1) := by
  have hdigit : em.mantissa / 2 * 2 + em.mantissa % 2 = em.mantissa := Nat.div_add_mod' _ _
  have hfloor : magnitude em.shiftRightOne.mantissa (e + 1) = magnitude (em.mantissa / 2 * 2) e :=
    (magnitude_shift _ 1 e).symm
  have hceil : magnitude (em.shiftRightOne.mantissa + 1) (e + 1) =
      magnitude ((em.mantissa / 2 + 1) * 2) e := (magnitude_shift _ 1 e).symm
  refine ⟨?_, ?_, ?_⟩
  · rw [hfloor]
    exact (magnitude_le_magnitude_iff.mpr (by omega)).trans h.le
  · rw [hceil]
    exact h.lt.trans_le (magnitude_le_magnitude_iff.mpr (by omega))
  · -- The number is the shorter significand only if the digit dropped is zero.
    intro hv
    rw [hfloor] at hv
    have hle : em.mantissa ≤ em.mantissa / 2 * 2 := magnitude_le_magnitude_iff.mp (hv ▸ h.le)
    have heven : em.mantissa / 2 * 2 = em.mantissa := by omega
    obtain ⟨hround, hsticky⟩ := h.exact (by rw [hv, heven])
    have hmod : em.mantissa % 2 = 0 := by omega
    simp [ExtendedMantissa.shiftRightOne, hround, hsticky, hmod]

theorem shift (h : Brackets v em e) : ∀ k : ℕ, Brackets v (em >>> k) (e + k)
  | 0 => by
    rw [Nat.cast_zero, add_zero]
    exact h
  | k + 1 => by
    have hk := (h.shift k).shiftRightOne
    rw [add_assoc] at hk
    exact hk

/-- Rounding takes the lower end of a bracket, or the upper end when the number lies above the
    lower. -/
theorem rounded (h : Brackets v em e) : em.roundedMantissa = em.mantissa ∨
    em.roundedMantissa = em.mantissa + 1 ∧ magnitude em.mantissa e < v := by
  rcases eq_or_lt_of_le h.le with heq | hlt
  · obtain ⟨hround, hsticky⟩ := h.exact heq.symm
    obtain ⟨m, r, s⟩ := em
    dsimp only at hround hsticky
    subst hround hsticky
    exact .inl rfl
  · obtain ⟨m, r, s⟩ := em
    cases r <;> cases s <;>
      simp [ExtendedMantissa.roundedMantissa, ExtendedMantissa.accuracy, Accuracy.roundToNearestEven, hlt]
    omega

end Brackets

/-! ## Faithful significands -/

/-- A double's significand and exponent, with no double between them and a number. -/
structure Faithful (v : ℚ) (m : ℕ) (e : ℤ) : Prop where
  canonical : Canonical m e
  below : ∀ n f, Canonical n f → magnitude n f ≤ v → magnitude n f ≤ magnitude m e
  above : ∀ n f, Canonical n f → v ≤ magnitude n f → magnitude m e ≤ magnitude n f

namespace Brackets
variable {v : ℚ} {em : ExtendedMantissa} {e : ℤ}

/-- A double below the number is at most the lower end of a bracket that has all its digits. -/
theorem below (h : Brackets v em e) (hc : Canonical em.mantissa e) {n : ℕ} {f : ℤ} (hn : Canonical n f)
    (hv : magnitude n f ≤ v) : magnitude n f ≤ magnitude em.mantissa e := by
  rcases lt_or_ge f e with hf | hf
  · exact (hn.magnitude_lt hc hf).le
  · obtain ⟨k, rfl⟩ : ∃ k : ℕ, f = e + k := ⟨(f - e).toNat, by omega⟩
    rw [← magnitude_shift] at hv ⊢
    have hlt := magnitude_lt_magnitude_iff.mp (hv.trans_lt h.lt)
    exact magnitude_le_magnitude_iff.mpr (by omega)

/-- A double above the lower end is at least the upper end. -/
theorem above (hc : Canonical em.mantissa e) {n : ℕ} {f : ℤ} (hn : Canonical n f)
    (hv : magnitude em.mantissa e < magnitude n f) :
    magnitude (em.mantissa + 1) e ≤ magnitude n f := by
  rcases lt_or_ge f e with hf | hf
  · exact absurd (hn.magnitude_lt hc hf) hv.not_gt
  · obtain ⟨k, rfl⟩ : ∃ k : ℕ, f = e + k := ⟨(f - e).toNat, by omega⟩
    rw [← magnitude_shift] at hv ⊢
    have hlt := magnitude_lt_magnitude_iff.mp hv
    exact magnitude_le_magnitude_iff.mpr (by omega)

theorem rounded_below (h : Brackets v em e) (hc : Canonical em.mantissa e) {n : ℕ} {f : ℤ}
    (hn : Canonical n f) (hv : magnitude n f ≤ v) : magnitude n f ≤ magnitude em.roundedMantissa e := by
  refine (h.below hc hn hv).trans (magnitude_le_magnitude_iff.mpr ?_)
  rcases h.rounded with hr | ⟨hr, _⟩ <;> omega

theorem rounded_above (h : Brackets v em e) (hc : Canonical em.mantissa e) {n : ℕ} {f : ℤ}
    (hn : Canonical n f) (hv : v ≤ magnitude n f) : magnitude em.roundedMantissa e ≤ magnitude n f := by
  rcases h.rounded with hr | ⟨hr, hlt⟩
  · rw [hr]
    exact h.le.trans hv
  · rw [hr]
    exact above hc hn (hlt.trans_le hv)

end Brackets

/-! ## Rounding a significand -/

/-- A number of a sign, which is zero when its significand is. -/
def signed (s : Sign) (m : ℕ) (e : ℤ) : UnpackedFloat :=
  if h : m = 0 then .zero s else .finite s m e (Nat.pos_of_ne_zero h)

/-- How many digits a significand has too many. -/
def excess (m : ℕ) (e : ℤ) : ℕ := (max ((m.log2 : ℤ) + 1 + e - 53) (-1074) - e).toNat

theorem shiftToTargetExponent_eq (m : ℕ) (e : ℤ) (acc : Accuracy) :
    shiftToTargetExponent .binary64 m e acc =
      (ExtendedMantissa.ofMantissaAndAccuracy m acc >>> excess m e, e + excess m e) := rfl

theorem excess_of_lt {m : ℕ} {e : ℤ} (hm : m < 2 ^ 53) (he : -1074 ≤ e) : excess m e = 0 := by
  have hlog : m.log2 ≤ 52 := by
    by_cases hz : m = 0
    · simp [hz]
    · have := (Nat.log2_lt hz).mpr hm
      omega
  unfold excess
  omega

theorem excess_two_pow {e : ℤ} (he : -1074 ≤ e) : excess (2 ^ 53) e = 1 := by
  unfold excess
  rw [Nat.log2_two_pow]
  omega

theorem mantissa_shiftRight (em : ExtendedMantissa) : ∀ k : ℕ, (em >>> k).mantissa = em.mantissa / 2 ^ k
  | 0 => by
    rw [pow_zero, Nat.div_one]
    rfl
  | k + 1 => by
    rw [pow_succ, ← Nat.div_div_eq_div_mul, ← mantissa_shiftRight em k]
    rfl

/-- What is left of a significand, once the excess is dropped, has the form of a double. -/
theorem canonical_div_excess {m : ℕ} {e : ℤ} (he : e ≤ max ((m.log2 : ℤ) + 1 + e - 53) (-1074)) :
    Canonical (m / 2 ^ excess m e) (e + excess m e) := by
  have hexp : e + excess m e = max ((m.log2 : ℤ) + 1 + e - 53) (-1074) := by
    unfold excess
    omega
  refine ⟨?_, by omega, ?_⟩
  · rw [Nat.div_lt_iff_lt_mul (by positivity), ← pow_add]
    exact Nat.lt_log2_self.trans_le (Nat.pow_le_pow_right two_pos (by omega))
  · by_cases hleast : e + excess m e = -1074
    · exact .inl hleast
    · refine .inr ?_
      have hlog : m.log2 = 52 + excess m e := by omega
      have hm : m ≠ 0 := by
        rintro rfl
        rw [Nat.log2_zero] at hlog
        omega
      rw [Nat.le_div_iff_mul_le (by positivity), ← pow_add, ← hlog]
      exact Nat.log2_self_le hm

theorem roundWithAccuracy_eq (s : Sign) (m : ℕ) (e : ℤ) (acc : Accuracy) :
    roundWithAccuracy .binary64 s m e acc =
      let em := ExtendedMantissa.ofMantissaAndAccuracy m acc >>> excess m e
      signed s (em.roundedMantissa / 2 ^ excess em.roundedMantissa (e + excess m e))
        (e + excess m e + excess em.roundedMantissa (e + excess m e)) := by
  unfold roundWithAccuracy signed
  simp only [shiftToTargetExponent_eq, mantissa_shiftRight]
  rfl

@[simp] theorem mantissa_ofMantissaAndAccuracy (m : ℕ) (acc : Accuracy) :
    (ExtendedMantissa.ofMantissaAndAccuracy m acc).mantissa = m := by
  rcases acc with _ | _ | _ | _ <;> rfl

/-- Rounding a significand gives a number with no double between it and the exact number. -/
theorem exists_faithful {v : ℚ} {m : ℕ} {e : ℤ} {acc : Accuracy}
    (hb : Brackets v (ExtendedMantissa.ofMantissaAndAccuracy m acc) e)
    (he : e ≤ max ((m.log2 : ℤ) + 1 + e - 53) (-1074)) :
    ∃ m' e', Faithful v m' e' ∧ ∀ s, roundWithAccuracy .binary64 s m e acc = signed s m' e' := by
  simp only [roundWithAccuracy_eq]
  have hb := hb.shift (excess m e)
  have hc : Canonical (ExtendedMantissa.ofMantissaAndAccuracy m acc >>> excess m e).mantissa
      (e + excess m e) := by
    rw [mantissa_shiftRight, mantissa_ofMantissaAndAccuracy]
    exact canonical_div_excess he
  generalize ExtendedMantissa.ofMantissaAndAccuracy m acc >>> excess m e = em at *
  generalize e + (excess m e : ℤ) = t at *
  have hle : em.mantissa ≤ em.roundedMantissa ∧ em.roundedMantissa ≤ em.mantissa + 1 := by
    rcases hb.rounded with h | ⟨h, _⟩ <;> omega
  have hfull := hc.full
  rcases lt_or_ge em.roundedMantissa (2 ^ 53) with hlt | hge
  · refine ⟨em.roundedMantissa, t, ⟨⟨hlt, hc.least_le, by omega⟩, ?_, ?_⟩, fun s => ?_⟩
    · exact fun n f hn => hb.rounded_below hc hn
    · exact fun n f hn => hb.rounded_above hc hn
    · rw [excess_of_lt hlt hc.least_le, pow_zero, Nat.div_one, Nat.cast_zero, add_zero]
  · -- Rounding up may need one digit more; then the last digit is zero.
    have heq : em.roundedMantissa = 2 ^ 53 := by
      have := hc.lt
      omega
    have hcarry : magnitude (2 ^ 52) (t + 1) = magnitude em.roundedMantissa t := by
      rw [heq]
      exact (magnitude_shift (2 ^ 52) 1 t).symm
    have hleast := hc.least_le
    refine ⟨2 ^ 52, t + 1, ⟨⟨by norm_num, by omega, .inr le_rfl⟩, ?_, ?_⟩, fun s => ?_⟩
    · rw [hcarry]
      exact fun n f hn => hb.rounded_below hc hn
    · rw [hcarry]
      exact fun n f hn => hb.rounded_above hc hn
    · rw [heq, excess_two_pow hc.least_le]
      rfl

/-! ## Results -/

/-- A result, and no finite double strictly between it and an exact number. -/
def Rounds (v : ℚ) (u : UnpackedFloat) : Prop :=
  ∀ y, IsDouble y → y.isFinite = true →
    (exact y ≤ v → y.le u = true) ∧ (v ≤ exact y → u.le y = true)

theorem Rounds.neg {v : ℚ} {u : UnpackedFloat} (h : Rounds v u) : Rounds (-v) u.neg := by
  intro y hy fy
  have hneg := h y.neg hy.neg ((isFinite_neg y).trans fy)
  have hyy : y.neg.neg = y := by rcases y with (_ | _) | _ | (_ | _) | ⟨_ | _, _, _, _⟩ <;> rfl
  rw [exact_neg, ← neg_le_neg_iff u y.neg, ← neg_le_neg_iff y.neg u, hyy] at hneg
  exact ⟨fun hv => hneg.2 (by linarith), fun hv => hneg.1 (by linarith)⟩

/-- A result once it is packed into sixty-four bits. -/
def settle (u : UnpackedFloat) : UnpackedFloat :=
  UnpackedFloat.unpack .binary64 (UnpackedFloat.pack .binary64 u)

/-- A double that is not negative has a magnitude for its value. -/
theorem exists_magnitude {y : UnpackedFloat} (hy : IsDouble y) (hpos : 0 ≤ exact y) :
    ∃ n f, Canonical n f ∧ f ≤ 971 ∧ exact y = magnitude n f := by
  rcases y with s | _ | s | ⟨_ | _, m, e, hm⟩
  · exact ⟨0, -1074, .zero, by decide, (magnitude_zero _).symm⟩
  · exact ⟨0, -1074, .zero, by decide, (magnitude_zero _).symm⟩
  · exact ⟨0, -1074, .zero, by decide, (magnitude_zero _).symm⟩
  · exact absurd hpos (neg_lt_zero.mpr (magnitude_pos hm)).not_ge
  · exact ⟨m, e, hy.1, hy.2, rfl⟩

theorem settle_signed {s : Sign} {m : ℕ} {e : ℤ} (hc : Canonical m e) :
    settle (signed s m e) = if 971 < e ∧ m ≠ 0 then .infinity s else signed s m e := by
  unfold signed settle
  by_cases hm : m = 0
  · rw [dif_pos hm, if_neg (by simp [hm])]
    exact unpack_pack_of_isDouble trivial
  · rw [dif_neg hm, unpack_pack_finite s _ hc]
    simp [hm]

theorem exact_signed_positive (m : ℕ) (e : ℤ) : exact (signed .positive m e) = magnitude m e := by
  unfold signed
  split
  · next h => simp [h, exact]
  · rfl

theorem le_infinity {y : UnpackedFloat} (fy : y.isFinite = true) : y.le (.infinity .positive) = true := by
  rcases finite_cases fy with ⟨s, rfl⟩ | ⟨m, e, hm, rfl⟩ | ⟨m, e, hm, rfl⟩ <;> rfl

theorem rounds_settle_positive {v : ℚ} {m : ℕ} {e : ℤ} (hv : 0 ≤ v) (h : Faithful v m e) :
    Rounds v (settle (signed .positive m e)) := by
  intro y hy fy
  have hbelow : exact y ≤ v → exact y ≤ magnitude m e := by
    intro hle
    rcases le_or_gt 0 (exact y) with hpos | hneg
    · obtain ⟨n, f, hn, _, heq⟩ := exists_magnitude hy hpos
      rw [heq] at hle ⊢
      exact h.below n f hn hle
    · exact hneg.le.trans (magnitude_nonneg m e)
  have habove : v ≤ exact y → magnitude m e ≤ exact y := by
    intro hle
    obtain ⟨n, f, hn, _, heq⟩ := exists_magnitude hy (hv.trans hle)
    rw [heq] at hle ⊢
    exact h.above n f hn hle
  rw [settle_signed h.canonical]
  split
  · next hover =>
    -- A double above the number would have an exponent in range, and so be below the result.
    refine ⟨fun _ => le_infinity fy, fun hle => ?_⟩
    obtain ⟨n, f, hn, hf, heq⟩ := exists_magnitude hy (hv.trans hle)
    have hlt := hn.magnitude_lt h.canonical (hf.trans_lt hover.1)
    have hge := habove hle
    rw [heq] at hge
    exact absurd hge hlt.not_ge
  · next hrange =>
    have hdouble : IsDouble (signed .positive m e) := by
      unfold signed
      split
      · trivial
      · next hm => exact ⟨h.canonical, by omega⟩
    have hfinite : (signed .positive m e).isFinite = true := by
      unfold signed
      split <;> rfl
    rw [le_iff_exact_le hy hdouble fy hfinite, le_iff_exact_le hdouble hy hfinite fy,
      exact_signed_positive]
    exact ⟨hbelow, habove⟩

/-- The number of a sign and a magnitude. -/
def signedValue : Sign → ℚ → ℚ
  | .positive, v => v
  | .negative, v => -v

theorem settle_signed_negative {m : ℕ} {e : ℤ} (hc : Canonical m e) :
    settle (signed .negative m e) = (settle (signed .positive m e)).neg := by
  rw [settle_signed hc, settle_signed hc]
  split
  · rfl
  · unfold signed
    split <;> rfl

theorem rounds_settle {v : ℚ} {m : ℕ} {e : ℤ} (s : Sign) (hv : 0 ≤ v) (h : Faithful v m e) :
    Rounds (signedValue s v) (settle (signed s m e)) := by
  cases s with
  | positive => exact rounds_settle_positive hv h
  | negative =>
    rw [settle_signed_negative h.canonical]
    exact (rounds_settle_positive hv h).neg

/-- Rounding a significand rounds the number that it brackets. -/
theorem rounds_roundWithAccuracy {v : ℚ} {m : ℕ} {e : ℤ} {acc : Accuracy} (s : Sign)
    (hb : Brackets v (ExtendedMantissa.ofMantissaAndAccuracy m acc) e)
    (he : e ≤ max ((m.log2 : ℤ) + 1 + e - 53) (-1074)) :
    Rounds (signedValue s v) (settle (roundWithAccuracy .binary64 s m e acc)) := by
  obtain ⟨m', e', hfaithful, heq⟩ := exists_faithful hb he
  have hv : 0 ≤ v := (magnitude_nonneg _ _).trans hb.le
  rw [heq]
  exact rounds_settle s hv hfaithful

end BatchMeans.Double
