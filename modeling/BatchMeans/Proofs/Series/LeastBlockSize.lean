import Mathlib.Order.Bounds.Basic
import BatchMeans.Proofs.Arith.Ordered
import BatchMeans.Proofs.Series.Acceptance

/- The search for a block size finds the least size that qualifies.

   A size qualifies (`Qualifies`) when it leaves two blocks or more and the
   coefficient it is judged by (`effectiveCoefficient?`) is within the limit.
   One step of the search decides this without refusing (`sizeQualifies_step`),
   so the search goes through the sizes in order and stops at the first
   (`findM?_firstFrom`). As no size beyond half the length leaves two blocks,
   what it finds is the least of all natural numbers that qualify, and when it
   finds nothing none does (`blockSize?_isLeastOf`). A larger limit lets more
   sizes qualify, so the size found can only fall.

   The arithmetic may be that of the doubles: nothing is asked of it but
   `OrderedArith`. An undefined coefficient is within no limit. -/
namespace BatchMeans.Series

/-! ## Searching upwards -/

section Search
variable {α : Type} {P : Nat → Prop}

/-- The first of the `k` numbers from `s` on with a property, or nothing when none has it. -/
def FirstFrom (P : Nat → Prop) (s k : Nat) : Option Nat → Prop
  | some q => s ≤ q ∧ q < s + k ∧ P q ∧ ∀ j, s ≤ j → j < q → ¬ P j
  | none => ∀ j, s ≤ j → j < s + k → ¬ P j

/-- The least of all numbers with a property, or nothing when none has it. -/
def IsLeastOf (P : Nat → Prop) : Option Nat → Prop
  | some q => IsLeast {q | P q} q
  | none => ∀ q, ¬ P q

theorem FirstFrom.cons {s k : Nat} {r : Option Nat} (hs : ¬ P s) (h : FirstFrom P (s + 1) k r) :
    FirstFrom P s (k + 1) r := by
  cases r with
  | some q =>
    obtain ⟨hsq, hqk, hP, hmin⟩ := h
    refine ⟨by omega, by omega, hP, ?_⟩
    intro j hj hjq
    rcases Nat.eq_or_lt_of_le hj with rfl | hlt
    · exact hs
    · exact hmin j hlt hjq
  | none =>
    intro j hj hjk
    rcases Nat.eq_or_lt_of_le hj with rfl | hlt
    · exact hs
    · exact h j hlt (by omega)

/-- A search whose steps decide the property ends, without refusing, at the first number that
    has it. -/
theorem findM?_firstFrom {p : Nat → Checked α Bool} : ∀ (k s : Nat),
    (∀ j, s ≤ j → j < s + k → ∃ b, p j = .ok b ∧ (b = true ↔ P j)) →
    ∃ r, (List.range' s k).findM? p = .ok r ∧ FirstFrom P s k r
  | 0, s, _ => ⟨none, rfl, fun j hj hjs => absurd hjs (by omega)⟩
  | k + 1, s, hp => by
    -- The first number is decided here; the rest of the range is a shorter search from `s + 1`.
    obtain ⟨b, hb, hbP⟩ := hp s (Nat.le_refl s) (by omega)
    rw [List.range'_succ, List.findM?, hb, ok_bind]
    cases b with
    | true => exact ⟨some s, rfl, Nat.le_refl s, by omega, hbP.mp rfl, fun j hj hjs => by omega⟩
    | false =>
      have hs : ¬ P s := fun h => Bool.false_ne_true (hbP.mpr h)
      obtain ⟨r, hr, hfirst⟩ := findM?_firstFrom k (s + 1) fun j hj hjk => hp j (by omega) (by omega)
      exact ⟨r, hr, hfirst.cons hs⟩

theorem FirstFrom.isLeastOf {s k : Nat} {r : Option Nat} (h : FirstFrom P s k r)
    (hrange : ∀ q, P q → s ≤ q ∧ q < s + k) : IsLeastOf P r := by
  cases r with
  | some q =>
    obtain ⟨_, _, hP, hmin⟩ := h
    refine ⟨hP, ?_⟩
    intro j hj
    by_contra hlt
    exact hmin j (hrange j hj).1 (Nat.lt_of_not_le hlt) hj
  | none => exact fun q hq => h q (hrange q hq).1 (hrange q hq).2 hq

/-- The outcome of a search is fixed by the numbers that have the property. -/
theorem IsLeastOf.eq_some_iff {r : Option Nat} (h : IsLeastOf P r) (q : Nat) :
    r = some q ↔ IsLeast {q | P q} q := by
  cases r with
  | some q' => exact ⟨fun he => Option.some.inj he ▸ h, fun hq => congrArg some (h.unique hq)⟩
  | none => exact ⟨fun he => (nomatch he), fun hq => absurd hq.1 (h q)⟩

theorem IsLeastOf.eq_none_iff {r : Option Nat} (h : IsLeastOf P r) : r = none ↔ ∀ q, ¬ P q := by
  cases r with
  | some q => exact ⟨fun he => (nomatch he), fun hn => absurd h.1 (hn q)⟩
  | none => exact ⟨fun _ => h, fun _ => rfl⟩

theorem IsLeastOf.eq {r r' : Option Nat} (h : IsLeastOf P r) (h' : IsLeastOf P r') : r = r' := by
  apply Option.ext
  intro q
  rw [h.eq_some_iff, h'.eq_some_iff]

theorem findM?_onlyInvalid {β : Type} {p : β → Checked α Bool} (hp : ∀ b, OnlyInvalid (p b)) :
    ∀ bs : List β, OnlyInvalid (bs.findM? p)
  | [] => .ok none
  | b :: bs => .bind (hp b) fun found _ => by
    cases found with
    | true => exact .ok (some b)
    | false => exact findM?_onlyInvalid hp bs

/-- What a search finds is one of the candidates. -/
theorem mem_of_findM? {β : Type} {p : β → Checked α Bool} {b : β} {bs : List β}
    (h : bs.findM? p = .ok (some b)) : b ∈ bs := by
  induction bs with
  | nil => cases h
  | cons b' rest ih =>
    obtain ⟨found, _, hfound⟩ := bind_eq_ok_iff.mp h
    cases found with
    | true =>
      cases hfound
      exact List.mem_cons_self
    | false => exact List.mem_cons_of_mem b' (ih hfound)

end Search

/-! ## Sizes that qualify -/

variable {α : Type} [Arith α] {xs : List α} {method : MeanMethod} {centre limit : α} {q : Nat}

/-- The coefficient that blocks of `q` readings are judged by, without its sign: one when the
    block means do not vary, nothing when there is no coefficient at all. -/
def effectiveCoefficient? (xs : List α) (q : Nat) (centre : α) (method : MeanMethod) : Option α :=
  match blockAutocorrelation xs q centre method with
  | .ok coefficient => some (Arith.abs coefficient)
  | .error (.undefined _) => some 1
  | .error (.invalid _) => none

/-- There are two blocks of `q` readings or more, and their coefficient is within the limit. -/
def Qualifies (xs : List α) (centre : α) (method : MeanMethod) (limit : α) (q : Nat) : Prop :=
  1 ≤ q ∧ 2 ≤ xs.length / q ∧ ∃ c, effectiveCoefficient? xs q centre method = some c ∧ c ≤ limit

theorem Qualifies.two_le_div (h : Qualifies xs centre method limit q) : 2 ≤ xs.length / q := h.2.1

theorem Qualifies.mono [OrderedArith α] {limit' : α} (hle : limit ≤ limit')
    (h : Qualifies xs centre method limit q) : Qualifies xs centre method limit' q := by
  obtain ⟨hq, hdiv, c, hc, hcl⟩ := h
  exact ⟨hq, hdiv, c, hc, OrderedArith.le_trans hcl hle⟩

/-- Block means that vary have a coefficient to be judged by. -/
theorem effectiveCoefficient?_eq (h : Accepts xs method) (hq : 2 ≤ xs.length / q)
    (hc : Arith.isFinite centre = true)
    (hspread : ¬ Arith.IsZero (spread (reduceBlocks xs q method) centre)) :
    effectiveCoefficient? xs q centre method =
      some (Arith.abs (coefficientOf (reduceBlocks xs q method) centre)) := by
  rw [effectiveCoefficient?, blockAutocorrelation_eq h hq hc, if_neg hspread]

/-- Such a size qualifies when its coefficient is within the limit. -/
theorem qualifies_iff (h : Accepts xs method) (hq : 2 ≤ xs.length / q)
    (hc : Arith.isFinite centre = true)
    (hspread : ¬ Arith.IsZero (spread (reduceBlocks xs q method) centre)) :
    Qualifies xs centre method limit q ↔
      Arith.abs (coefficientOf (reduceBlocks xs q method) centre) ≤ limit := by
  have hone : 1 ≤ q := (two_le_div_iff.mp hq).1
  simp [Qualifies, effectiveCoefficient?_eq h hq hc hspread, hone, hq]

/-- One step of the search decides whether a size qualifies. -/
theorem sizeQualifies_step [OrderedArith α] (h : Accepts xs method)
    (hc : Arith.isFinite centre = true) (hq : 2 ≤ xs.length / q) :
    ∃ b, sizeQualifies xs centre method limit q = .ok b ∧
      (b = true ↔ Qualifies xs centre method limit q) := by
  have hone : 1 ≤ q := (two_le_div_iff.mp hq).1
  have heq := blockAutocorrelation_eq h hq hc
  by_cases hz : Arith.IsZero (spread (reduceBlocks xs q method) centre)
  · rw [if_pos hz] at heq
    refine ⟨decide (Arith.abs (1 : α) ≤ limit), ?_, ?_⟩
    · simp [sizeQualifies, judgedCoefficient, heq]
    · simp [Qualifies, effectiveCoefficient?, heq, hone, hq, OrderedArith.abs_one]
  · rw [if_neg hz] at heq
    refine ⟨decide (Arith.abs (coefficientOf (reduceBlocks xs q method) centre) ≤ limit), ?_, ?_⟩
    · simp [sizeQualifies, judgedCoefficient, heq]
    · simp [Qualifies, effectiveCoefficient?, heq, hone, hq]

theorem blockSize?_eq_findM? (h : Accepts xs method) (hn : 2 ≤ xs.length) (hl : 0 ≤ limit) :
    blockSize? xs method limit =
      (List.range' 1 (xs.length / 2)).findM? (sizeQualifies xs (method.reduce xs) method limit) := by
  simp [blockSize?, require_of hn, require_of hl, mean_eq_ok h]

/-- The search ends with the least of all natural numbers that qualify. -/
theorem blockSize?_isLeastOf [OrderedArith α] (h : Accepts xs method) (hn : 2 ≤ xs.length)
    (hc : Arith.isFinite (method.reduce xs) = true) (hl : 0 ≤ limit) :
    ∃ r, blockSize? xs method limit = .ok r ∧
      IsLeastOf (Qualifies xs (method.reduce xs) method limit) r := by
  rw [blockSize?_eq_findM? h hn hl]
  obtain ⟨r, hr, hfirst⟩ := findM?_firstFrom (P := Qualifies xs (method.reduce xs) method limit)
    (xs.length / 2) 1 fun q hq hqn => sizeQualifies_step h hc (two_le_div_iff.mpr ⟨hq, by omega⟩)
  -- The range that is searched holds every size that leaves two blocks.
  refine ⟨r, hr, hfirst.isLeastOf ?_⟩
  intro q hq
  have hbounds := two_le_div_iff.mp hq.two_le_div
  omega

theorem blockSize?_eq_some_iff [OrderedArith α] (h : Accepts xs method) (hn : 2 ≤ xs.length)
    (hc : Arith.isFinite (method.reduce xs) = true) (hl : 0 ≤ limit) :
    blockSize? xs method limit = .ok (some q) ↔
      IsLeast {q | Qualifies xs (method.reduce xs) method limit q} q := by
  obtain ⟨r, hr, hleast⟩ := blockSize?_isLeastOf h hn hc hl
  rw [hr, Except.ok.injEq, hleast.eq_some_iff]

theorem blockSize?_eq_none_iff [OrderedArith α] (h : Accepts xs method) (hn : 2 ≤ xs.length)
    (hc : Arith.isFinite (method.reduce xs) = true) (hl : 0 ≤ limit) :
    blockSize? xs method limit = .ok none ↔
      ∀ q, ¬ Qualifies xs (method.reduce xs) method limit q := by
  obtain ⟨r, hr, hleast⟩ := blockSize?_isLeastOf h hn hc hl
  rw [hr, Except.ok.injEq, hleast.eq_none_iff]

/-- What a limit finds, a larger limit finds at the same size or before. -/
theorem blockSize?_mono [OrderedArith α] {limit' : α} (h : Accepts xs method)
    (hn : 2 ≤ xs.length) (hc : Arith.isFinite (method.reduce xs) = true) (hl : 0 ≤ limit)
    (hle : limit ≤ limit') (hq : blockSize? xs method limit = .ok (some q)) :
    ∃ q' ≤ q, blockSize? xs method limit' = .ok (some q') := by
  have hqualifies := ((blockSize?_eq_some_iff h hn hc hl).mp hq).1.mono hle
  obtain ⟨r, hr, hleast⟩ := blockSize?_isLeastOf h hn hc (OrderedArith.le_trans hl hle)
  cases r with
  | none => exact absurd hqualifies (hleast q)
  | some q' => exact ⟨q', hleast.2 hqualifies, hr⟩

/-- A mean that is not finite is refused at the first size. -/
theorem blockSize?_of_not_finite (h : Accepts xs method) (hn : 2 ≤ xs.length)
    (hc : ¬ Arith.isFinite (method.reduce xs) = true) (hl : 0 ≤ limit) :
    blockSize? xs method limit = .error (.invalid (.sampleMeanNotFinite (method.reduce xs))) := by
  obtain ⟨k, hk⟩ : ∃ k, xs.length / 2 = k + 1 := ⟨xs.length / 2 - 1, by omega⟩
  have hstep := blockAutocorrelation_of_not_finite (q := 1) h (by simpa using hn) hc
  rw [blockSize?_eq_findM? h hn hl, hk, List.range'_succ, List.findM?]
  simp [sizeQualifies, judgedCoefficient, hstep]

theorem blockSize?_of_negative (hn : 2 ≤ xs.length) (hl : ¬ 0 ≤ limit) :
    blockSize? xs method limit = .error (.invalid (.negativeLimit limit)) := by
  simp [blockSize?, require_of hn, require_of_not hl]

theorem blockSize?_of_short (hn : ¬ 2 ≤ xs.length) :
    blockSize? xs method limit = .error (.invalid (.tooFewReadings xs.length)) := by
  simp [blockSize?, require_of_not hn]

theorem length_of_blockSize? {r : Option Nat} (h : blockSize? xs method limit = .ok r) :
    2 ≤ xs.length := by
  obtain ⟨⟨⟩, hn, _⟩ := bind_eq_ok_iff.mp h
  exact require_eq_ok_iff.mp hn

/-- A search that is not refused had a series with a mean, and a limit not below zero. -/
theorem accepts_of_blockSize? {r : Option Nat} (h : blockSize? xs method limit = .ok r) :
    Accepts xs method ∧ 0 ≤ limit := by
  obtain ⟨_, _, h⟩ := bind_eq_ok_iff.mp h
  obtain ⟨⟨⟩, hl, h⟩ := bind_eq_ok_iff.mp h
  obtain ⟨_, hmean, _⟩ := bind_eq_ok_iff.mp h
  exact ⟨(mean_eq_ok_iff.mp hmean).1, require_eq_ok_iff.mp hl⟩

/-- A block size that is found leaves two blocks. -/
theorem two_le_div_of_blockSize? (h : blockSize? xs method limit = .ok (some q)) :
    1 ≤ q ∧ 2 ≤ xs.length / q := by
  obtain ⟨_, _, h⟩ := bind_eq_ok_iff.mp h
  obtain ⟨_, _, h⟩ := bind_eq_ok_iff.mp h
  obtain ⟨_, _, h⟩ := bind_eq_ok_iff.mp h
  obtain ⟨i, _, hi⟩ := List.mem_range'.mp (mem_of_findM? h)
  have hq : 1 ≤ q := by omega
  exact ⟨hq, two_le_div_iff.mpr ⟨hq, by omega⟩⟩

theorem judgedCoefficient_onlyInvalid (xs : List α) (q : Nat) (centre : α) (method : MeanMethod) :
    OnlyInvalid (judgedCoefficient xs q centre method) := by
  unfold judgedCoefficient
  intro e he
  cases hr : blockAutocorrelation xs q centre method with
  | ok c =>
    rw [hr] at he
    cases he
  | error e' =>
    rw [hr] at he
    cases e' with
    | invalid cause => exact ⟨cause, (Except.error.inj he).symm⟩
    | undefined cause => cases he

theorem blockSize?_onlyInvalid (xs : List α) (method : MeanMethod) (limit : α) :
    OnlyInvalid (blockSize? xs method limit) :=
  .bind (.require _ _) fun _ _ => .bind (.require _ _) fun _ _ =>
    .bind (mean_onlyInvalid xs method) fun _ _ =>
      findM?_onlyInvalid (fun _ => .bind (judgedCoefficient_onlyInvalid _ _ _ _) fun _ _ => .ok _) _

/-- **The search is complete, minimal and monotone.** For a series of two readings or more that
    has a finite mean, and a limit not below zero, it is never refused, it finds `q` exactly when
    `q` is the least natural number that qualifies, it finds nothing exactly when none does, and
    a larger limit finds a size at most as large. Otherwise the input breaks a rule. -/
theorem blockSize?_complete [OrderedArith α] (hmean : mean xs method = .ok centre)
    (hn : 2 ≤ xs.length) :
    (Arith.isFinite centre = true → ∀ limit : α, 0 ≤ limit →
      (∃ r, blockSize? xs method limit = .ok r) ∧
      (∀ q, blockSize? xs method limit = .ok (some q) ↔
        IsLeast {q | Qualifies xs centre method limit q} q) ∧
      (blockSize? xs method limit = .ok none ↔ ∀ q, ¬ Qualifies xs centre method limit q) ∧
      ∀ limit', limit ≤ limit' → ∀ q, blockSize? xs method limit = .ok (some q) →
        ∃ q' ≤ q, blockSize? xs method limit' = .ok (some q')) ∧
    ∀ limit : α, ¬ Arith.isFinite centre = true ∨ ¬ 0 ≤ limit →
      ∃ cause, blockSize? xs method limit = .error (.invalid cause) := by
  obtain ⟨h, rfl⟩ := mean_eq_ok_iff.mp hmean
  refine ⟨?_, ?_⟩
  · intro hc limit hl
    obtain ⟨r, hr, _⟩ := blockSize?_isLeastOf h hn hc hl
    refine ⟨⟨r, hr⟩, fun q => blockSize?_eq_some_iff h hn hc hl,
      blockSize?_eq_none_iff h hn hc hl, ?_⟩
    intro limit' hle q hq
    exact blockSize?_mono h hn hc hl hle hq
  · intro limit hbad
    by_cases hl : 0 ≤ limit
    · have hc := hbad.resolve_right (not_not_intro hl)
      exact ⟨_, blockSize?_of_not_finite h hn hc hl⟩
    · exact ⟨_, blockSize?_of_negative hn hl⟩

/-- Four readings in double precision: what a limit of a fifth finds is the least size that
    qualifies, and a limit of one finds a size at most as large. -/
theorem blockSize?_complete_four :
    mean [1.0, 3.0, 2.0, (4.0 : Float)] .arithmetic = .ok 2.5 ∧
    (∃ r, blockSize? [1.0, 3.0, 2.0, (4.0 : Float)] .arithmetic 0.2 = .ok r) ∧
    (∀ q, blockSize? [1.0, 3.0, 2.0, (4.0 : Float)] .arithmetic 0.2 = .ok (some q) →
      IsLeast {q | Qualifies [1.0, 3.0, 2.0, (4.0 : Float)] 2.5 .arithmetic 0.2 q} q ∧
      ∃ q' ≤ q, blockSize? [1.0, 3.0, 2.0, (4.0 : Float)] .arithmetic 1.0 = .ok (some q')) := by
  have haccepts : Accepts [1.0, 3.0, 2.0, (4.0 : Float)] .arithmetic :=
    ⟨by simp, by decide +kernel, fun h => (nomatch h)⟩
  have hmean : mean [1.0, 3.0, 2.0, (4.0 : Float)] .arithmetic = .ok 2.5 :=
    mean_eq_ok_iff.mpr ⟨haccepts, by decide +kernel⟩
  obtain ⟨hr, hsome, _, hmono⟩ :=
    (blockSize?_complete hmean (by decide)).1 (by decide +kernel) 0.2 (by decide +kernel)
  exact ⟨hmean, hr, fun q hq => ⟨(hsome q).mp hq, hmono 1.0 (by decide +kernel) q hq⟩⟩

end BatchMeans.Series
