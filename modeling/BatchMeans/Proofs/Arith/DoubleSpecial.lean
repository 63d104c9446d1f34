import BatchMeans.Proofs.Arith.DoubleSigns

/- Infinite and undefined doubles.

   A double is undefined, infinite or finite (`parts`), and what an operation does
   with the first two is a matter of cases. Nothing undefined or infinite becomes finite
   again by sums, differences, products, roots, or quotients of it
   (`isFinite_of_add` and its neighbours). Squares, sums of them, and their
   quotients by counts are not negative unless they are undefined
   (`NonnegOrUndefined`). A product of two numbers that are not negative is undefined only
   when one is infinite and the other is zero (`nonneg_mul_iff`), and a number lies between its difference
   and its sum with such a number unless both are infinite (`between_sub_add_iff`). -/
namespace BatchMeans.Double
open Float.Model Float.Model.UnpackedFloat

variable {x y t w p : Float}

theorem parts_sub (x y : Float) :
    parts (x - y) = settle (UnpackedFloat.sub .binary64 (parts x) (parts y)) := rfl

theorem parts_mul (x y : Float) :
    parts (x * y) = settle (UnpackedFloat.mul .binary64 (parts x) (parts y)) := rfl

theorem parts_sqrt (x : Float) : parts x.sqrt = settle (UnpackedFloat.sqrt .binary64 (parts x)) := rfl

/-! ## What is not finite stays so -/

theorem isFinite_settle_of_ne {u : UnpackedFloat} (h : (settle u).isFinite = true) :
    u ≠ .notANumber ∧ ∀ s, u ≠ .infinity s := by
  refine ⟨fun hu => ?_, fun s hu => ?_⟩
  · rw [isFinite_settle_eq_false (.inl hu)] at h
    cases h
  · rw [isFinite_settle_eq_false (.inr ⟨s, hu⟩)] at h
    cases h

theorem isFinite_of_addition {u v : UnpackedFloat}
    (h : (settle (UnpackedFloat.add .binary64 u v)).isFinite = true) :
    u.isFinite = true ∧ v.isFinite = true := by
  obtain ⟨hnan, hinf⟩ := isFinite_settle_of_ne h
  rcases u with (_ | _) | _ | s | ⟨s, m, e, hm⟩ <;> rcases v with (_ | _) | _ | s' | ⟨s', m', e', hm'⟩ <;>
    first
    | exact ⟨rfl, rfl⟩
    | exact absurd rfl hnan
    | exact absurd rfl (hinf _)

theorem isFinite_of_add (h : (x + y).isFinite = true) : x.isFinite = true ∧ y.isFinite = true :=
  isFinite_of_addition h

theorem isFinite_of_sub (h : (x - y).isFinite = true) : x.isFinite = true ∧ y.isFinite = true := by
  have hparts : (settle (UnpackedFloat.add .binary64 (parts x) (parts y).neg)).isFinite = true := by
    rw [← subtraction_eq]
    exact h
  obtain ⟨fx, fy⟩ := isFinite_of_addition hparts
  exact ⟨fx, (isFinite_neg (parts y)).symm.trans fy⟩

theorem multiplication_comm (u v : UnpackedFloat) :
    UnpackedFloat.mul .binary64 u v = UnpackedFloat.mul .binary64 v u := by
  have hsign : ∀ s s' : Sign, s * s' = s' * s := by intro s s'; cases s <;> cases s' <;> rfl
  cases u <;> cases v <;> simp only [UnpackedFloat.mul, hsign, Nat.mul_comm, Int.add_comm]

theorem parts_mul_comm (x y : Float) : parts (x * y) = parts (y * x) := by
  rw [parts_mul, parts_mul, multiplication_comm]

theorem isFinite_of_mul (h : (x * y).isFinite = true) : x.isFinite = true ∧ y.isFinite = true := by
  have hright : ∀ {a b : Float}, (a * b).isFinite = true → b.isFinite = true := by
    intro a b hab
    by_contra hb
    rw [isFinite_mul_eq_false a (Bool.eq_false_iff.mpr hb)] at hab
    cases hab
  have hcomm : (y * x).isFinite = true := by
    show (parts (y * x)).isFinite = true
    rw [parts_mul_comm]
    exact h
  exact ⟨hright hcomm, hright h⟩

theorem isFinite_of_div (h : (x / y).isFinite = true) : x.isFinite = true := by
  obtain ⟨hnan, hinf⟩ := isFinite_settle_of_ne (u := UnpackedFloat.div .binary64 (parts x) (parts y)) h
  show (parts x).isFinite = true
  rcases hx : parts x with s | _ | s | ⟨s, m, e, hm⟩ <;> rw [hx] at hnan hinf
  · rcases hy : parts y with s' | _ | s' | ⟨s', m', e', hm'⟩ <;> rw [hy] at hnan hinf <;>
      first
      | exact absurd rfl hnan
      | exact absurd rfl (hinf _)
  · exact absurd rfl hnan
  · rfl
  · rfl

theorem isFinite_of_sqrt (h : x.sqrt.isFinite = true) : x.isFinite = true := by
  obtain ⟨hnan, hinf⟩ := isFinite_settle_of_ne (u := UnpackedFloat.sqrt .binary64 (parts x)) h
  show (parts x).isFinite = true
  rcases hx : parts x with (_ | _) | _ | s | ⟨s, m, e, hm⟩ <;> rw [hx] at hnan hinf
  · exact absurd rfl hnan
  · exact absurd rfl (hinf _)
  · exact absurd rfl hnan
  · rfl
  · rfl

/-- The terms of a finite sum are finite. -/
theorem isFinite_of_sumBy {β : Type} {f : β → Float} (xs : List β)
    (h : (Arith.sumBy f xs).isFinite = true) : ∀ x ∈ xs, (f x).isFinite = true := by
  induction xs using List.reverseRecOn with
  | nil => simp
  | append_singleton ys y ih =>
    rw [Arith.sumBy_concat] at h
    obtain ⟨hsum, hy⟩ := isFinite_of_add h
    intro x hx
    rcases List.mem_append.mp hx with hx | hx
    · exact ih hsum x hx
    · rwa [List.mem_singleton.mp hx]

/-! ## Square roots -/

/-- Some number lies in every bracket. -/
theorem exists_brackets (m : ℕ) (e : ℤ) (acc : Accuracy) :
    ∃ v, Brackets v (ExtendedMantissa.ofMantissaAndAccuracy m acc) e := by
  cases acc with
  | exact => exact ⟨_, brackets_exact m e⟩
  | inexact o =>
    have hunit : (0 : ℚ) < 2 ^ e := by positivity
    refine ⟨magnitude m e + 2 ^ e / 2, ?_, ?_, ?_⟩
    · rw [mantissa_ofMantissaAndAccuracy]
      linarith
    · rw [mantissa_ofMantissaAndAccuracy, magnitude, magnitude, Nat.cast_succ, add_one_mul]
      linarith
    · rw [mantissa_ofMantissaAndAccuracy]
      intro h
      linarith

/-- The root of a significand has digits enough. -/
theorem sqrt_le_target {m k : ℕ} {e t : ℤ} (hm : 0 < m)
    (ht : t = min (e / 2) (max (((m.log2 : ℤ) + 1 + e + 1) / 2 - 53) (-1074))) (hk : e = k + 2 * t) :
    t ≤ max (((Nat.sqrt (m * 2 ^ k)).log2 : ℤ) + 1 + t - 53) (-1074) := by
  rcases le_or_gt t (-1074) with hle | hgt
  · omega
  have hlog : 52 + 52 ≤ m.log2 + k := by omega
  have hroot : 2 ^ 52 ≤ Nat.sqrt (m * 2 ^ k) := by
    rw [Nat.le_sqrt, ← pow_add]
    calc 2 ^ (52 + 52) ≤ 2 ^ (m.log2 + k) := Nat.pow_le_pow_right two_pos hlog
      _ = 2 ^ m.log2 * 2 ^ k := pow_add _ _ _
      _ ≤ m * 2 ^ k := Nat.mul_le_mul_right _ (Nat.log2_self_le hm.ne')
  have := (Nat.le_log2 (by omega)).mpr hroot
  omega

/-- The root of a positive number is a rounding of some number that is not negative. -/
theorem exists_rounds_sqrt {m : ℕ} {e : ℤ} (hm : 0 < m) :
    ∃ v, 0 ≤ v ∧ Rounds v (settle (UnpackedFloat.sqrt .binary64 (.finite .positive m e hm))) := by
  obtain ⟨t, ht⟩ : ∃ t : ℤ, t = min (e / 2) (max (((m.log2 : ℤ) + 1 + e + 1) / 2 - 53) (-1074)) := ⟨_, rfl⟩
  have hk : e = ((e - 2 * t).toNat : ℕ) + 2 * t := by omega
  obtain ⟨acc, hsqrt⟩ : ∃ acc, UnpackedFloat.sqrt .binary64 (.finite .positive m e hm) =
      roundWithAccuracy .binary64 .positive (Nat.sqrt (m * 2 ^ (e - 2 * t).toNat)) t acc := by
    rw [← Nat.shiftLeft_eq, ht]
    exact ⟨_, rfl⟩
  obtain ⟨v, hv⟩ := exists_brackets (Nat.sqrt (m * 2 ^ (e - 2 * t).toNat)) t acc
  rw [hsqrt]
  exact ⟨v, (magnitude_nonneg _ _).trans hv.le, rounds_roundWithAccuracy .positive hv (sqrt_le_target hm ht hk)⟩

/-! ## Numbers that are not negative -/

theorem nonneg_cases (h : 0 ≤ x) : parts x = .infinity .positive ∨ (∃ s, parts x = .zero s) ∨
    ∃ m e hm, parts x = .finite .positive m e hm := by
  rw [le_iff_parts_le] at h
  rcases hx : parts x with (_ | _) | _ | s | ⟨_ | _, m, e, hm⟩ <;> rw [hx] at h
  · cases h
  · exact .inl rfl
  · cases h
  · exact .inr (.inl ⟨s, rfl⟩)
  · cases h
  · exact .inr (.inr ⟨m, e, hm, rfl⟩)

theorem nonneg_of_infinity (h : parts x = .infinity .positive) : 0 ≤ x := by
  rw [le_iff_parts_le, h]
  rfl

theorem nonneg_of_rounds {v : ℚ} (h : Rounds v (parts x)) (hv : 0 ≤ v) : 0 ≤ x :=
  le_of_rounds h isFinite_zero (value_zero.trans_le hv)

theorem not_nonneg_of_undefined (h : parts x = .notANumber) : ¬ 0 ≤ x := by
  rw [le_iff_parts_le, h]
  exact Bool.false_ne_true

theorem isFinite_eq_false_of_infinity {s : Sign} (h : parts x = .infinity s) : ¬ x.isFinite = true := by
  show ¬ (parts x).isFinite = true
  rw [h]
  exact Bool.false_ne_true

theorem isZero_iff_parts : Arith.IsZero x ↔ ∃ s, parts x = .zero s := by
  refine ⟨parts_of_isZero, fun ⟨s, hs⟩ => isZero_iff.mpr ⟨?_, ?_⟩⟩
  · show (parts x).isFinite = true
    rw [hs]
    rfl
  · rw [value, hs]
    rfl

/-- Not negative, or undefined. -/
def NonnegOrUndefined (x : Float) : Prop := 0 ≤ x ∨ parts x = .notANumber

theorem undefined_of_settle {u : UnpackedFloat} (h : parts x = settle u) (hu : u = .notANumber) :
    parts x = .notANumber := by
  rw [h, hu, settle_notANumber]

/-- A square is not negative. -/
theorem nonneg_square (x : Float) : NonnegOrUndefined (Arith.square x) := by
  rcases hx : parts x with s | _ | s | ⟨s, m, e, hm⟩
  · have hmul : UnpackedFloat.mul .binary64 (.infinity s) (.infinity s) = .infinity .positive := by
      cases s <;> rfl
    refine .inl (nonneg_of_infinity ?_)
    rw [Arith.square, parts_mul, hx, hmul, settle_infinity]
  · refine .inr (undefined_of_settle (parts_mul x x) ?_)
    rw [hx]
    rfl
  all_goals
    have fx : x.isFinite = true := by
      show (parts x).isFinite = true
      rw [hx]
      rfl
    exact .inl (nonneg_of_rounds (rounds_mul fx fx) (mul_self_nonneg (value x)))

theorem NonnegOrUndefined.add (hx : NonnegOrUndefined x) (hy : NonnegOrUndefined y) :
    NonnegOrUndefined (x + y) := by
  rcases hx with hx | hx
  · rcases hy with hy | hy
    · exact .inl (OrderedArith.le_trans hy (le_add_of_nonneg hx hy))
    · refine .inr (undefined_of_settle (parts_add x y) ?_)
      rw [hy]
      rcases parts x with _ | _ | _ | _ <;> rfl
  · refine .inr (undefined_of_settle (parts_add x y) ?_)
    rw [hx]
    rfl

theorem nonneg_sumBy {β : Type} {f : β → Float} (xs : List β) (h : ∀ x ∈ xs, NonnegOrUndefined (f x)) :
    NonnegOrUndefined (Arith.sumBy f xs) :=
  Arith.sumBy_induction xs (.inl isZero_zero.2) fun _ hs x hx => hs.add (h x hx)

/-- Over infinity every finite number is zero. -/
theorem nonneg_div_infinity (hx : 0 ≤ x) (hy : parts y = .infinity .positive) : NonnegOrUndefined (x / y) := by
  rcases nonneg_cases hx with xinf | ⟨s, xzero⟩ | ⟨m, e, hm, xpos⟩
  · refine .inr (undefined_of_settle (parts_div x y) ?_)
    rw [xinf, hy]
    rfl
  · refine .inl (nonneg_of_rounds (v := 0) ?_ le_rfl)
    rw [parts_div, xzero, hy]
    exact rounds_zero _
  · refine .inl (nonneg_of_rounds (v := 0) ?_ le_rfl)
    rw [parts_div, xpos, hy]
    exact rounds_zero _

theorem nonneg_div_of_finite (hx : 0 ≤ x) (hy : 0 < y) (fy : y.isFinite = true) : 0 ≤ x / y := by
  have hvalue : 0 < value y := value_pos fy hy
  rcases finiteOr_of_nonneg hx with xinf | fx
  · refine nonneg_of_infinity ?_
    rcases nonneg_cases (lt_iff.mp hy).1 with yinf | ⟨s, yzero⟩ | ⟨m, e, hm, ypos⟩
    · exact absurd fy (isFinite_eq_false_of_infinity yinf)
    · exact absurd (isZero_iff_parts.mpr ⟨s, yzero⟩) (not_isZero_of_pos hy)
    · rw [parts_div, xinf, ypos]
      exact settle_infinity _
  · exact nonneg_of_rounds (rounds_div fx fy hvalue.ne') (div_nonneg (value_nonneg fx hx) hvalue.le)

theorem NonnegOrUndefined.div (hx : NonnegOrUndefined x) (hy : 0 < y) : NonnegOrUndefined (x / y) := by
  rcases hx with hx | hx
  · rcases finiteOr_of_nonneg (lt_iff.mp hy).1 with yinf | fy
    · exact nonneg_div_infinity hx yinf
    · exact .inl (nonneg_div_of_finite hx hy fy)
  · refine .inr (undefined_of_settle (parts_div x y) ?_)
    rw [hx]
    rfl

theorem isZero_sqrt (h : Arith.IsZero x) : Arith.IsZero x.sqrt := by
  obtain ⟨s, hs⟩ := parts_of_isZero h
  refine isZero_of_rounds ?_
  rw [parts_sqrt, hs]
  exact rounds_zero s

theorem NonnegOrUndefined.sqrt (hx : NonnegOrUndefined x) : NonnegOrUndefined x.sqrt := by
  rcases hx with hx | hx
  · refine .inl ?_
    rcases nonneg_cases hx with xinf | ⟨s, xzero⟩ | ⟨m, e, hm, xpos⟩
    · refine nonneg_of_infinity ?_
      rw [parts_sqrt, xinf]
      exact settle_infinity _
    · exact (isZero_sqrt (isZero_iff_parts.mpr ⟨s, xzero⟩)).2
    · obtain ⟨v, hv, hround⟩ := exists_rounds_sqrt (e := e) hm
      rw [← xpos, ← parts_sqrt] at hround
      exact nonneg_of_rounds hround hv
  · refine .inr (undefined_of_settle (parts_sqrt x) ?_)
    rw [hx]
    rfl

/-! ## Where a product or an end of an interval is undefined -/

/-- A number that is infinite times one that is not negative is undefined exactly when that is zero. -/
theorem nonneg_infinity_mul_iff (ht : parts t = .infinity .positive) (hx : 0 ≤ x) :
    0 ≤ t * x ↔ ¬ Arith.IsZero x := by
  rw [isZero_iff_parts]
  rcases nonneg_cases hx with xinf | ⟨s, xzero⟩ | ⟨m, e, hm, xpos⟩
  · refine iff_of_true (nonneg_of_infinity ?_) (by simp [xinf])
    rw [parts_mul, ht, xinf]
    exact settle_infinity _
  · refine iff_of_false (not_nonneg_of_undefined (undefined_of_settle (parts_mul t x) ?_)) (by simp [xzero])
    rw [ht, xzero]
    rfl
  · refine iff_of_true (nonneg_of_infinity ?_) (by simp [xpos])
    rw [parts_mul, ht, xpos]
    exact settle_infinity _

theorem isFinite_of_isZero (h : Arith.IsZero x) : x.isFinite = true := (isZero_iff.mp h).1

/-- A product with a number that is not negative is a number itself, unless one of the two is infinite and the
    other is zero. -/
theorem nonneg_mul_iff (ht : 0 ≤ t) (hx : NonnegOrUndefined x) :
    0 ≤ t * x ↔ 0 ≤ x ∧ ¬ (¬ t.isFinite = true ∧ Arith.IsZero x) ∧
      ¬ (Arith.IsZero t ∧ ¬ x.isFinite = true) := by
  rcases hx with hx | hx
  · rcases finiteOr_of_nonneg ht with tinf | tfin
    · have hfin := isFinite_eq_false_of_infinity tinf
      have hzero : ¬ Arith.IsZero t := fun h => hfin (isFinite_of_isZero h)
      rw [nonneg_infinity_mul_iff tinf hx]
      simp [hx, hfin, hzero]
    · rcases finiteOr_of_nonneg hx with xinf | xfin
      · have hfin := isFinite_eq_false_of_infinity xinf
        have hzero : ¬ Arith.IsZero x := fun h => hfin (isFinite_of_isZero h)
        rw [le_iff_parts_le, parts_mul_comm, ← le_iff_parts_le, nonneg_infinity_mul_iff xinf ht]
        simp [hx, hfin, hzero]
      · have hvalue : 0 ≤ value t * value x := mul_nonneg (value_nonneg tfin ht) (value_nonneg xfin hx)
        have hproduct := nonneg_of_rounds (rounds_mul tfin xfin) hvalue
        exact iff_of_true hproduct ⟨hx, fun h => h.1 tfin, fun h => h.2 xfin⟩
  · refine iff_of_false (not_nonneg_of_undefined (undefined_of_settle (parts_mul t x) ?_))
      fun h => not_nonneg_of_undefined hx h.1
    rw [hx]
    rcases parts t with _ | _ | _ | _ <;> rfl

/-- A finite number times zero is zero. -/
theorem isZero_finite_mul (ht : t.isFinite = true) (hx : Arith.IsZero x) : Arith.IsZero (t * x) := by
  obtain ⟨fx, vx⟩ := isZero_iff.mp hx
  have h := rounds_mul ht fx
  rw [vx, mul_zero] at h
  exact isZero_of_rounds h

theorem le_self_of_finite (h : x.isFinite = true) : x ≤ x := (le_iff_value_le h h).mpr le_rfl

theorem not_le_of_undefined (h : parts x = .notANumber) : ¬ x ≤ y ∧ ¬ y ≤ x := by
  rw [le_iff_parts_le, le_iff_parts_le, h]
  refine ⟨Bool.false_ne_true, ?_⟩
  rcases parts y with (_ | _) | _ | _ | ⟨_ | _, m, e, hm⟩ <;> exact Bool.false_ne_true

/-- A finite number lies between its difference and its sum with any number that is not negative. -/
theorem between_of_finite (hp : p.isFinite = true) (hw : 0 ≤ w) : p - w ≤ p ∧ p ≤ p + w := by
  rcases finiteOr_of_nonneg hw with winf | wfin
  · rw [le_iff_parts_le, le_iff_parts_le, parts_sub, parts_add, winf]
    rcases finite_cases (u := parts p) hp with ⟨_, hparts⟩ | ⟨_, _, _, hparts⟩ | ⟨_, _, _, hparts⟩ <;>
      rw [hparts]
    all_goals
      simp only [UnpackedFloat.sub, UnpackedFloat.add, settle_infinity]
      exact ⟨rfl, rfl⟩
  · have hnonneg := value_nonneg wfin hw
    exact ⟨ge_of_rounds (rounds_sub hp wfin) hp (by linarith),
      le_of_rounds (rounds_add hp wfin) hp (by linarith)⟩

/-- A number lies between its difference and its sum with a number that is not negative, unless both are
    infinite. -/
theorem between_sub_add_iff (hw : 0 ≤ w) :
    p - w ≤ p ∧ p ≤ p + w ↔ p ≤ p ∧ (p.isFinite = true ∨ w.isFinite = true) := by
  by_cases hp : p.isFinite = true
  · exact iff_of_true (between_of_finite hp hw) ⟨le_self_of_finite hp, .inl hp⟩
  have hp' : ¬ (parts p).isFinite = true := hp
  rcases hparts : parts p with s | _ | s | ⟨s, m, e, hm⟩ <;> rw [hparts] at hp'
  · rcases finiteOr_of_nonneg hw with winf | wfin
    · have hfin : ¬ (p.isFinite = true ∨ w.isFinite = true) :=
        not_or.mpr ⟨hp, isFinite_eq_false_of_infinity winf⟩
      refine iff_of_false (fun h => ?_) fun h => hfin h.2
      cases s with
      | positive =>
        have hundef := undefined_of_settle (parts_sub p w) (by rw [hparts, winf]; rfl)
        exact (not_le_of_undefined hundef).1 h.1
      | negative =>
        have hundef := undefined_of_settle (parts_add p w) (by rw [hparts, winf]; rfl)
        exact (not_le_of_undefined hundef).2 h.2
    · have hself : (UnpackedFloat.infinity s).le (.infinity s) = true := by cases s <;> rfl
      rw [le_iff_parts_le, le_iff_parts_le, le_iff_parts_le, parts_sub, parts_add, hparts]
      rcases finite_cases (u := parts w) wfin with ⟨_, hw'⟩ | ⟨_, _, _, hw'⟩ | ⟨_, _, _, hw'⟩ <;> rw [hw']
      all_goals
        simp only [UnpackedFloat.sub, UnpackedFloat.add, settle_infinity]
        exact iff_of_true ⟨hself, hself⟩ ⟨hself, .inr wfin⟩
  · exact iff_of_false (fun h => (not_le_of_undefined hparts).2 h.1) fun h => (not_le_of_undefined hparts).1 h.1
  · exact absurd rfl hp'
  · exact absurd rfl hp'

end BatchMeans.Double
