import Mathlib.Data.List.Forall2
import Mathlib.Tactic.MkIffOfInductiveProp
import BatchMeans.Proofs.Series.Acceptance
import BatchMeans.Table.SeriesColumn

/- What is read as a series, and which record ends the reading.

   A record is sound (`Sound`) when it can be read and, unless it is passed over,
   has a finite number in the field. One induction on the records says what a
   reading comes to (`readingsFrom_outcome`): either all records are sound, and
   the series is the numbers of those that are not passed over, in their order, or
   the first record that is not sound is named. Each of the two excludes the
   other, so the laws of success and of failure follow in both
   directions. Where no number of records to pass over is given, the first record
   decides whether it is none or one. -/
namespace BatchMeans.Table
variable {field k i : Nat} {fields : List String} {record : Option (List String)}
variable {records rest : List (Option (List String))} {x : Float} {xs : List Float} {e : Failure}

/-! ## Records -/

/-- A record can be read, has the field, and the text of the field is the finite number `x`. -/
def Holds (field : Nat) (record : Option (List String)) (x : Float) : Prop :=
  ∃ fields text, record = some fields ∧ fields[field]? = some text ∧
    Decimal.readNumber? text = some x ∧ x.isFinite = true

/-- A record that does not end the reading when the first `k` are passed over and it has index `i`. -/
structure Sound (field k i : Nat) (record : Option (List String)) : Prop where
  readable : record ≠ none
  number : k ≤ i → ∃ x, Holds field record x

/-- How the reading ends at a record that is not sound. Lines are numbered from one. -/
def failureAt (field i : Nat) : Option (List String) → Failure
  | none => .during (.readLine (i + 1)) (.data .notUtf8)
  | some fields => .noNumber field (i + 1) fields

theorem reading?_eq_some_iff : reading? field fields = some x ↔ Holds field (some fields) x := by
  unfold reading? Holds
  constructor
  · intro h
    split at h
    next y hy =>
      obtain ⟨text, htext, hnumber⟩ := Option.bind_eq_some_iff.mp hy
      split at h
      next hfinite =>
        cases h
        exact ⟨fields, text, rfl, htext, hnumber, hfinite⟩
      · cases h
    · cases h
  · intro h
    obtain ⟨_, text, hfields, htext, hnumber, hfinite⟩ := h
    cases hfields
    simp [htext, hnumber, hfinite]

theorem reading?_eq_none_iff : reading? field fields = none ↔ ∀ x, ¬ Holds field (some fields) x := by
  simp only [Option.eq_none_iff_forall_ne_some, ne_eq, reading?_eq_some_iff]

theorem Holds.unique {y : Float} (h : Holds field record x) (h' : Holds field record y) : x = y := by
  obtain ⟨fields, _, rfl, _⟩ := id h
  exact Option.some.inj ((reading?_eq_some_iff.mpr h).symm.trans (reading?_eq_some_iff.mpr h'))

theorem Holds.isFinite (h : Holds field record x) : x.isFinite = true := by
  obtain ⟨_, _, _, _, _, hfinite⟩ := h
  exact hfinite

/-- Lists that agree place by place: nothing on either side is without its partner. -/
theorem exists_of_forall₂ {β γ : Type} {R : β → γ → Prop} {bs : List β} {cs : List γ}
    (h : List.Forall₂ R bs cs) : (∀ b ∈ bs, ∃ c, R b c) ∧ ∀ c ∈ cs, ∃ b, R b c := by
  induction h with
  | nil => exact ⟨fun _ hb => (nomatch hb), fun _ hc => (nomatch hc)⟩
  | cons hbc _ ih =>
    exact ⟨List.forall_mem_cons.mpr ⟨⟨_, hbc⟩, ih.1⟩, List.forall_mem_cons.mpr ⟨⟨_, hbc⟩, ih.2⟩⟩

/-! ## One record after another -/

/-- A sound record is passed over, or its number comes first in what is read. -/
theorem readingsFrom_of_sound (rest : List (Option (List String))) (h : Sound field k i record) :
    (i < k ∧ readingsFrom field (some k) i (record :: rest) = readingsFrom field (some k) (i + 1) rest) ∨
    (k ≤ i ∧ ∃ x, Holds field record x ∧ readingsFrom field (some k) i (record :: rest) =
      (readingsFrom field (some k) (i + 1) rest).map (x :: ·)) := by
  cases record with
  | none => exact absurd rfl h.readable
  | some fields =>
    rcases Nat.lt_or_ge i k with hik | hki
    · exact .inl ⟨hik, if_pos hik⟩
    · obtain ⟨x, hx⟩ := h.number hki
      refine .inr ⟨hki, x, hx, ?_⟩
      have hskip : ¬ i < (some k).getD 0 := Nat.not_lt.mpr hki
      rw [readingsFrom, if_neg hskip, reading?_eq_some_iff.mpr hx]

/-- Any other record ends the reading. -/
theorem readingsFrom_of_not_sound (h : ¬ Sound field k i record) :
    readingsFrom field (some k) i (record :: rest) = .error (failureAt field i record) := by
  cases record with
  | none => rfl
  | some fields =>
    have hki : k ≤ i := by
      by_contra hik
      exact h ⟨Option.some_ne_none fields, fun hki => absurd hki hik⟩
    have hnone : reading? field fields = none := by
      rw [reading?_eq_none_iff]
      intro x hx
      exact h ⟨Option.some_ne_none fields, fun _ => ⟨x, hx⟩⟩
    have hskip : ¬ i < (some k).getD 0 := Nat.not_lt.mpr hki
    rw [readingsFrom, if_neg hskip, hnone]
    exact if_neg (by simp)

/-- All records from index `i` on are sound. -/
def AllSound (field k i : Nat) (records : List (Option (List String))) : Prop :=
  ∀ j record, records[j]? = some record → Sound field k (i + j) record

/-- Of the records from index `i` on, that at place `j` is the first that is not sound. -/
@[mk_iff] structure FirstUnsound (field k i : Nat) (records : List (Option (List String))) (j : Nat)
    (record : Option (List String)) : Prop where
  getElem?_eq : records[j]? = some record
  not_sound : ¬ Sound field k (i + j) record
  sound_before : ∀ j' < j, ∀ r, records[j']? = some r → Sound field k (i + j') r

/-- The place in the rest of the records, and in all of them. -/
theorem sound_succ_iff {j : Nat} :
    Sound field k (i + 1 + j) record ↔ Sound field k (i + (j + 1)) record := by
  rw [Nat.add_right_comm, Nat.add_assoc]

theorem AllSound.cons (h : Sound field k i record) (hrest : AllSound field k (i + 1) rest) :
    AllSound field k i (record :: rest) := by
  intro j r hr
  cases j with
  | zero =>
    cases hr
    exact h
  | succ j => exact sound_succ_iff.mp (hrest j r hr)

theorem FirstUnsound.head (h : ¬ Sound field k i record) :
    FirstUnsound field k i (record :: rest) 0 record where
  getElem?_eq := rfl
  not_sound := h
  sound_before := fun _ hj => absurd hj (Nat.not_lt_zero _)

theorem FirstUnsound.cons {j : Nat} {r : Option (List String)} (h : Sound field k i record)
    (hrest : FirstUnsound field k (i + 1) rest j r) :
    FirstUnsound field k i (record :: rest) (j + 1) r where
  getElem?_eq := hrest.getElem?_eq
  not_sound := fun hr => hrest.not_sound (sound_succ_iff.mpr hr)
  sound_before := by
    intro j' hj' r' hr'
    cases j' with
    | zero =>
      cases hr'
      exact h
    | succ j' => exact sound_succ_iff.mp (hrest.sound_before j' (Nat.lt_of_succ_lt_succ hj') r' hr')

/-- What a reading comes to. The induction is on the records: a sound one leaves the outcome to those after
    it, and any other is the first that is not. -/
theorem readingsFrom_outcome (field k i : Nat) (records : List (Option (List String))) :
    (∃ xs, readingsFrom field (some k) i records = .ok xs ∧ AllSound field k i records ∧
      List.Forall₂ (Holds field) (records.drop (k - i)) xs) ∨
    ∃ j record, readingsFrom field (some k) i records = .error (failureAt field (i + j) record) ∧
      FirstUnsound field k i records j record := by
  induction records generalizing i with
  | nil =>
    refine .inl ⟨[], rfl, fun j r hr => (nomatch hr), ?_⟩
    rw [List.drop_nil]
    exact .nil
  | cons record rest ih =>
    by_cases h : Sound field k i record
    · have hstep := readingsFrom_of_sound rest h
      rcases ih (i + 1) with ⟨xs, hxs, hall, hread⟩ | ⟨j, r, hr, hfirst⟩
      · refine .inl ?_
        rcases hstep with ⟨hik, hstep⟩ | ⟨hki, x, hx, hstep⟩
        · have hdrop : k - i = (k - (i + 1)) + 1 := by omega
          refine ⟨xs, hstep.trans hxs, hall.cons h, ?_⟩
          rwa [hdrop, List.drop_succ_cons]
        · have hdrop : k - i = 0 := Nat.sub_eq_zero_of_le hki
          have hdrop' : k - (i + 1) = 0 := by omega
          rw [hdrop', List.drop_zero] at hread
          refine ⟨x :: xs, ?_, hall.cons h, ?_⟩
          · rw [hstep, hxs]
            rfl
          · rw [hdrop, List.drop_zero]
            exact .cons hx hread
      · refine .inr ⟨j + 1, r, ?_, hfirst.cons h⟩
        have hindex : i + (j + 1) = i + 1 + j := by omega
        rw [hindex]
        rcases hstep with ⟨_, hstep⟩ | ⟨_, x, _, hstep⟩
        · exact hstep.trans hr
        · rw [hstep, hr]
          rfl
    · exact .inr ⟨0, record, readingsFrom_of_not_sound h, .head h⟩

/-! ## All records -/

theorem FirstUnsound.not_allSound {j : Nat} (h : FirstUnsound field k i records j record) :
    ¬ AllSound field k i records := fun hall => h.not_sound (hall j record h.getElem?_eq)

theorem FirstUnsound.unique {j j' : Nat} {r r' : Option (List String)}
    (h : FirstUnsound field k i records j r) (h' : FirstUnsound field k i records j' r') :
    j = j' ∧ r = r' := by
  have hle : ¬ j < j' := fun hlt => h.not_sound (h'.sound_before j hlt r h.getElem?_eq)
  have hge : ¬ j' < j := fun hlt => h'.not_sound (h.sound_before j' hlt r' h'.getElem?_eq)
  obtain rfl : j = j' := Nat.le_antisymm (Nat.le_of_not_lt hge) (Nat.le_of_not_lt hle)
  exact ⟨rfl, Option.some.inj (h.getElem?_eq.symm.trans h'.getElem?_eq)⟩

theorem exists_seriesOfRecords_iff :
    (∃ xs, seriesOfRecords field (some k) records = .ok xs) ↔ AllSound field k 0 records := by
  rcases readingsFrom_outcome field k 0 records with ⟨xs, hxs, hall, _⟩ | ⟨j, r, hr, hfirst⟩
  · exact ⟨fun _ => hall, fun _ => ⟨xs, hxs⟩⟩
  · refine ⟨fun h => ?_, fun hall => absurd hall hfirst.not_allSound⟩
    obtain ⟨xs, hxs⟩ := h
    cases hr.symm.trans hxs

/-- The numbers of the records that are not passed over, in their order. -/
theorem forall₂_of_seriesOfRecords (h : seriesOfRecords field (some k) records = .ok xs) :
    List.Forall₂ (Holds field) (records.drop k) xs := by
  rcases readingsFrom_outcome field k 0 records with ⟨ys, hys, _, hread⟩ | ⟨j, r, hr, _⟩
  · cases hys.symm.trans h
    exact hread
  · cases hr.symm.trans h

theorem seriesOfRecords_eq_error_iff :
    seriesOfRecords field (some k) records = .error e ↔
      ∃ j record, FirstUnsound field k 0 records j record ∧ e = failureAt field j record := by
  rcases readingsFrom_outcome field k 0 records with ⟨xs, hxs, hall, _⟩ | ⟨j, r, hr, hfirst⟩
  · refine ⟨fun h => (nomatch hxs.symm.trans h), fun h => ?_⟩
    obtain ⟨_, _, hfirst, _⟩ := h
    exact absurd hall hfirst.not_allSound
  · rw [Nat.zero_add] at hr
    constructor
    · intro h
      exact ⟨j, r, hfirst, Except.error.inj (h.symm.trans hr)⟩
    · intro h
      obtain ⟨j', r', hfirst', rfl⟩ := h
      obtain ⟨rfl, rfl⟩ := hfirst.unique hfirst'
      exact hr

/-- The law of success in one: the records can be read, and those that are not passed over hold the series. -/
theorem seriesOfRecords_eq_ok_iff : seriesOfRecords field (some k) records = .ok xs ↔
    (∀ record ∈ records, record ≠ none) ∧ List.Forall₂ (Holds field) (records.drop k) xs := by
  constructor
  · intro h
    refine ⟨fun record hmem => ?_, forall₂_of_seriesOfRecords h⟩
    obtain ⟨j, hj⟩ := List.mem_iff_getElem?.mp hmem
    exact (exists_seriesOfRecords_iff.mp ⟨xs, h⟩ j record hj).readable
  · intro h
    obtain ⟨hreadable, hread⟩ := h
    have hall : AllSound field k 0 records := by
      intro j record hj
      refine ⟨hreadable record (List.mem_of_getElem? hj), fun hkj => ?_⟩
      rw [Nat.zero_add] at hkj
      have hdrop : (records.drop k)[j - k]? = some record := by
        rw [List.getElem?_drop, Nat.add_sub_cancel' hkj, hj]
      exact (exists_of_forall₂ hread).1 record (List.mem_of_getElem? hdrop)
    obtain ⟨ys, hys⟩ := exists_seriesOfRecords_iff.mpr hall
    rw [hys]
    exact congrArg Except.ok (List.right_unique_forall₂' (fun _ _ _ h h' => h.unique h')
      (forall₂_of_seriesOfRecords hys) hread)

/-! ## Without a number of records to pass over -/

/-- After the first record nothing is passed over. -/
theorem readingsFrom_none (hi : 1 ≤ i) (hk : k ≤ i) :
    readingsFrom field none i records = readingsFrom field (some k) i records := by
  induction records generalizing i with
  | nil => rfl
  | cons record rest ih =>
    have hrest := ih (Nat.le_succ_of_le hi) (Nat.le_succ_of_le hk)
    cases record with
    | none => rfl
    | some fields => simp [readingsFrom, hrest, Nat.not_lt.mpr hk, Nat.ne_of_gt hi]

/-- A first record with a number is a reading. -/
theorem seriesOfRecords_none_of_holds (h : Holds field record x) :
    seriesOfRecords field none (record :: rest) = seriesOfRecords field (some 0) (record :: rest) := by
  obtain ⟨fields, _, rfl, _⟩ := id h
  have hrest : readingsFrom field none 1 rest = readingsFrom field (some 0) 1 rest :=
    readingsFrom_none (Nat.le_refl 1) (Nat.zero_le 1)
  simp only [seriesOfRecords, readingsFrom, reading?_eq_some_iff.mpr h, hrest, Option.getD_none,
    Option.getD_some]

/-- A first record without one is a header. -/
theorem seriesOfRecords_none_of_not_holds (h : ∀ x, ¬ Holds field (some fields) x) :
    seriesOfRecords field none (some fields :: rest) =
      seriesOfRecords field (some 1) (some fields :: rest) := by
  have hrest : readingsFrom field none 1 rest = readingsFrom field (some 1) 1 rest :=
    readingsFrom_none (Nat.le_refl 1) (Nat.le_refl 1)
  simp [seriesOfRecords, readingsFrom, reading?_eq_none_iff.mpr h, hrest]

/-- Without a number of records to pass over it is none or one. -/
theorem exists_skip (field : Nat) (records : List (Option (List String))) :
    ∃ k, seriesOfRecords field none records = seriesOfRecords field (some k) records := by
  cases records with
  | nil => exact ⟨0, rfl⟩
  | cons record rest =>
    cases record with
    | none => exact ⟨0, rfl⟩
    | some fields =>
      by_cases h : ∃ x, Holds field (some fields) x
      · obtain ⟨x, hx⟩ := h
        exact ⟨0, seriesOfRecords_none_of_holds hx⟩
      · exact ⟨1, seriesOfRecords_none_of_not_holds (not_exists.mp h)⟩

theorem isFinite_of_seriesOfRecords {skip : Option Nat} (h : seriesOfRecords field skip records = .ok xs) :
    ∀ x ∈ xs, x.isFinite = true := by
  obtain ⟨k, hk⟩ : ∃ k, seriesOfRecords field (some k) records = .ok xs := by
    cases skip with
    | some k => exact ⟨k, h⟩
    | none =>
      obtain ⟨k, hk⟩ := exists_skip field records
      exact ⟨k, hk.symm.trans h⟩
  intro x hx
  obtain ⟨_, hrecord⟩ := (exists_of_forall₂ (forall₂_of_seriesOfRecords hk)).2 x hx
  exact hrecord.isFinite

/-- **Reading a series loses, reorders and invents nothing.** When the first `k` records are to be passed
    over, there is a series exactly if every record can be read and those from index `k` on have a finite
    number in the field, and it is these numbers in their order; otherwise the first record for which
    this does not hold is named by its line. When no number is given, a first record that can be read but
    has no number is passed over, and no other. All readings are finite, so a series with any reading
    passes the check of a series. -/
theorem seriesOfRecords_faithful (field : Nat) (records : List (Option (List String))) :
    (∀ k, ((∃ xs, seriesOfRecords field (some k) records = .ok xs) ↔
        ∀ i record, records[i]? = some record → Sound field k i record) ∧
      (∀ xs, seriesOfRecords field (some k) records = .ok xs →
        List.Forall₂ (Holds field) (records.drop k) xs) ∧
      ∀ e, seriesOfRecords field (some k) records = .error e ↔
        ∃ i record, records[i]? = some record ∧ ¬ Sound field k i record ∧
          (∀ j < i, ∀ r, records[j]? = some r → Sound field k j r) ∧ e = failureAt field i record) ∧
    (∀ first rest x, records = first :: rest → Holds field first x →
      seriesOfRecords field none records = seriesOfRecords field (some 0) records) ∧
    (∀ fields rest, records = some fields :: rest → (∀ x, ¬ Holds field (some fields) x) →
      seriesOfRecords field none records = seriesOfRecords field (some 1) records) ∧
    (∀ rest, records = none :: rest →
      seriesOfRecords field none records = .error (failureAt field 0 none)) ∧
    (records = [] → seriesOfRecords field none records = .ok []) ∧
    ∀ skip xs, seriesOfRecords field skip records = .ok xs →
      (∀ x ∈ xs, x.isFinite = true) ∧ (xs ≠ [] → Series.checkFinite xs = .ok ()) := by
  refine ⟨fun k => ⟨?_, fun xs => forall₂_of_seriesOfRecords, fun e => ?_⟩, ?_, ?_, ?_, ?_, ?_⟩
  · rw [exists_seriesOfRecords_iff]
    simp only [AllSound, Nat.zero_add]
  · rw [seriesOfRecords_eq_error_iff]
    simp only [firstUnsound_iff, Nat.zero_add, and_assoc]
  · intro first rest x hrecords hx
    rw [hrecords, seriesOfRecords_none_of_holds hx]
  · intro fields rest hrecords hnone
    rw [hrecords, seriesOfRecords_none_of_not_holds hnone]
  · intro rest hrecords
    rw [hrecords]
    rfl
  · intro hrecords
    rw [hrecords]
    rfl
  · intro skip xs h
    have hfinite := isFinite_of_seriesOfRecords h
    exact ⟨hfinite, fun hne => Series.checkFinite_eq_ok_iff.mpr ⟨hne, hfinite⟩⟩

/-- A header and two readings in the second field. -/
def twoReadings : List (Option (List String)) :=
  [some ["time", "value"], some ["1", "1.5"], some ["2", "2.5"]]

/-- The header is passed over, and the two readings are the series; with a record that is too short after
    them, line four is named. -/
theorem seriesOfRecords_faithful_two :
    (∃ xs, seriesOfRecords 1 none twoReadings = .ok xs ∧
      List.Forall₂ (Holds 1) [some ["1", "1.5"], some ["2", "2.5"]] xs ∧
      Series.checkFinite xs = .ok ()) ∧
    seriesOfRecords 1 (some 1) (twoReadings ++ [some ["3"]]) = .error (.noNumber 1 4 ["3"]) := by
  have hheader : reading? 1 ["time", "value"] = none := Option.isNone_iff_eq_none.mp (by decide +kernel)
  have hshort : reading? 1 ["3"] = none := rfl
  have hfirst : (reading? 1 ["1", "1.5"]).isSome = true := by decide +kernel
  have hsecond : (reading? 1 ["2", "2.5"]).isSome = true := by decide +kernel
  obtain ⟨x, hx⟩ := Option.isSome_iff_exists.mp hfirst
  obtain ⟨y, hy⟩ := Option.isSome_iff_exists.mp hsecond
  have hsound : ∀ i record, twoReadings[i]? = some record → Sound 1 1 i record := by
    intro i record hrecord
    match i, hrecord with
    | 0, rfl => exact ⟨Option.some_ne_none _, fun h => absurd h (by decide)⟩
    | 1, rfl => exact ⟨Option.some_ne_none _, fun _ => ⟨x, reading?_eq_some_iff.mp hx⟩⟩
    | 2, rfl => exact ⟨Option.some_ne_none _, fun _ => ⟨y, reading?_eq_some_iff.mp hy⟩⟩
  obtain ⟨hskip, -, hnone, -, -, hchecked⟩ := seriesOfRecords_faithful 1 twoReadings
  obtain ⟨xs, hxs⟩ := (hskip 1).1.mpr hsound
  have hread := (hskip 1).2.1 xs hxs
  have hok := (hnone _ _ rfl (reading?_eq_none_iff.mp hheader)).trans hxs
  refine ⟨⟨xs, hok, hread, (hchecked none xs hok).2 ?_⟩, ?_⟩
  · intro hnil
    rw [hnil] at hread
    cases hread
  · refine (((seriesOfRecords_faithful 1 (twoReadings ++ [some ["3"]])).1 1).2.2 _).mpr
      ⟨3, some ["3"], rfl, fun h => ?_, fun j hj record hrecord => ?_, rfl⟩
    · obtain ⟨z, hz⟩ := h.number (by decide)
      exact reading?_eq_none_iff.mp hshort z hz
    · rw [List.getElem?_append_left hj] at hrecord
      exact hsound j record hrecord

end BatchMeans.Table
