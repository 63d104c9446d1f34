import BatchMeans.Proofs.Table.NamedColumns
import BatchMeans.Proofs.Throughput.Acceptance
import BatchMeans.Table.RoundRows

/- Rounds that are read are valid, and depend on two columns only.

   Each row makes a round from checked parts, and the first row that makes none
   ends the reading, so a list that is returned holds valid rounds only. Of a table with
   distinct names a row either holds a valid round (`HoldsValid`) or is refused for one
   reason (`Refused`), both by its fields under the two names alone. The rounds are
   therefore those of all rows, or the first row that is refused is named
   (`readRounds_named`), and columns in another order or of other names change nothing. -/
namespace BatchMeans.Table
open Throughput

/-- The induction is on the rows: the first makes a valid round, and the others are read alike. -/
theorem valid_of_roundsFrom {names : Option (List String)} :
    ∀ (i : Nat) (rows : List (Except DataFault (List String))) (rs : List (Round Float)),
      roundsFrom names i rows = .ok rs → ∀ r ∈ rs, r.Valid
  | _, [], _, h => by
    cases h
    simp
  | i, row :: rest, rs, h => by
    obtain ⟨_, _, h⟩ := bind_eq_ok_iff.mp h
    obtain ⟨r, hr, h⟩ := bind_eq_ok_iff.mp h
    obtain ⟨others, hothers, h⟩ := bind_eq_ok_iff.mp h
    cases h
    rw [Loaded.within, mapError_eq_ok_iff, Checked.loaded, mapError_eq_ok_iff] at hr
    intro r' hr'
    rcases List.mem_cons.mp hr' with rfl | hmem
    · exact Round.valid_of_ofParts hr
    · exact valid_of_roundsFrom (i + 1) rest others hothers r' hmem

theorem valid_of_readRounds {bytes : List UInt8} {rs : List (Round Float)}
    (h : readRounds bytes = .ok rs) : ∀ r ∈ rs, r.Valid := valid_of_roundsFrom 1 _ rs h

/-! ## One row -/

section Rows
variable {bytes bytes' : List UInt8} {names names' row row' : List String} {rows rows' : List (List String)}
  {r : Round Float} {rs : List (Round Float)} {i j : Nat} {e : Failure}

/-- The names of the columns that rounds are read from. -/
def roundColumns : List String := ["work_amount", "round_duration"]

/-- A row has the two numbers of a round under their names. -/
@[mk_iff] structure HoldsRound (names row : List String) (r : Round Float) : Prop where
  work : HasNumber names row "work_amount" r.work
  duration : HasNumber names row "round_duration" r.duration

/-- The two numbers make a valid round. -/
structure HoldsValid (names row : List String) (r : Round Float) : Prop where
  holds : HoldsRound names row r
  valid : r.Valid

/-- The refusal of row `i`, which lacks one of the two numbers. -/
def malformedRow (i : Nat) : Failure := .during (.roundRow i) (.data .undecodable)

/-- The refusal of row `i`, whose numbers make no valid round. -/
def invalidRow (i : Nat) (cause : Invalid Float) : Failure := .during (.roundValues i) (.fault (.invalid cause))

/-- Why row `i` is refused. -/
inductive Refused (names row : List String) (i : Nat) : Failure → Prop where
  | malformed {name : String} : name ∈ roundColumns → (∀ x, ¬ HasNumber names row name x) →
    Refused names row i (malformedRow i)
  | work {r : Round Float} : HoldsRound names row r → ¬ Arith.IsPositive r.work →
    Refused names row i (invalidRow i (.workNotPositive r.work))
  | duration {r : Round Float} : HoldsRound names row r → Arith.IsPositive r.work →
    ¬ Arith.IsPositive r.duration → Refused names row i (invalidRow i (.durationNotPositive r.duration))

/-- The two numbers of a row, looked up by name. -/
theorem roundOfRow_eq_ok_iff (h : names.Nodup) :
    roundOfRow (some names) (.ok row) = .ok (r.work, r.duration) ↔ HoldsRound names row r := by
  rw [holdsRound_iff, ← @number?_eq_some_iff names row _ 0 _ h, ← @number?_eq_some_iff names row _ 1 _ h,
    roundOfRow, ok_bind]
  cases number? (some names) 0 "work_amount" row with
  | none => simp
  | some work =>
    cases number? (some names) 1 "round_duration" row with
    | none => simp
    | some duration => simp

/-- A row without one of them is undecodable. -/
theorem roundOfRow_of_missing {name : String} (h : names.Nodup) (hname : name ∈ roundColumns)
    (hno : ∀ x, ¬ HasNumber names row name x) :
    roundOfRow (some names) (.ok row) = .error .undecodable := by
  have hnone : ∀ position, number? (some names) position name row = none := by
    intro position
    apply Option.eq_none_iff_forall_ne_some.mpr
    intro x hx
    exact hno x ((number?_eq_some_iff h).mp hx)
  rw [roundOfRow, ok_bind]
  rcases List.mem_pair.mp hname with rfl | rfl
  · rw [hnone]
  · cases number? (some names) 0 "work_amount" row with
    | none => rfl
    | some work => rw [hnone]

/-- A row with a valid round leaves the outcome to the rows after it. -/
theorem roundsFrom_of_holdsValid (h : names.Nodup) (hrow : HoldsValid names row r)
    (rest : List (Except DataFault (List String))) :
    roundsFrom (some names) i (.ok row :: rest) =
      (roundsFrom (some names) (i + 1) rest >>= fun rs => .ok (r :: rs)) := by
  have hround : Round.ofParts r.work r.duration = .ok r := by
    have hcheck := Round.check_eq_ok_iff.mpr hrow.valid
    simp [Round.ofParts, hcheck]
  rw [roundsFrom, (roundOfRow_eq_ok_iff h).mpr hrow.holds]
  simp only [hround, Checked.loaded, Loaded.within, Except.mapError, ok_bind, pure_eq_ok]

/-- Any other row ends the reading. -/
theorem roundsFrom_of_refused (h : names.Nodup) (hrow : Refused names row i e)
    (rest : List (Except DataFault (List String))) :
    roundsFrom (some names) i (.ok row :: rest) = .error e := by
  rw [roundsFrom]
  cases hrow with
  | malformed hname hno =>
    rw [roundOfRow_of_missing h hname hno]
    rfl
  | work hholds hwork =>
    rw [(roundOfRow_eq_ok_iff h).mpr hholds]
    simp only [Round.ofParts, Round.check, require_of_not hwork, Checked.loaded, Loaded.within,
      Except.mapError, ok_bind, error_bind, invalidRow]
  | duration hholds hwork hduration =>
    rw [(roundOfRow_eq_ok_iff h).mpr hholds]
    simp only [Round.ofParts, Round.check, require_of hwork, require_of_not hduration, Checked.loaded,
      Loaded.within, Except.mapError, ok_bind, error_bind, invalidRow]

/-- Every row is one or the other. -/
theorem holdsValid_or_refused (names row : List String) (i : Nat) :
    (∃ r, HoldsValid names row r) ∨ ∃ e, Refused names row i e := by
  by_cases hall : ∀ name ∈ roundColumns, ∃ x, HasNumber names row name x
  · obtain ⟨work, hwork⟩ := hall "work_amount" (by simp [roundColumns])
    obtain ⟨duration, hduration⟩ := hall "round_duration" (by simp [roundColumns])
    have hholds : HoldsRound names row ⟨work, duration⟩ := ⟨hwork, hduration⟩
    by_cases hwork : Arith.IsPositive work
    · by_cases hduration : Arith.IsPositive duration
      · exact .inl ⟨_, hholds, hwork, hduration⟩
      · exact .inr ⟨_, .duration hholds hwork hduration⟩
    · exact .inr ⟨_, .work hholds hwork⟩
  · obtain ⟨name, hname, hno⟩ : ∃ name ∈ roundColumns, ¬ ∃ x, HasNumber names row name x := by
      simpa only [not_forall, exists_prop] using hall
    exact .inr ⟨_, .malformed hname (not_exists.mp hno)⟩

/-! ## All rows -/

/-- Of the rows from number `i` on, that at place `j` is the first that is refused. -/
structure FirstRefused (names : List String) (i : Nat) (rows : List (List String)) (j : Nat) (e : Failure) :
    Prop where
  refused : ∃ row, rows[j]? = some row ∧ Refused names row (i + j) e
  before : ∀ j' < j, ∀ row, rows[j']? = some row → ∃ r, HoldsValid names row r

theorem FirstRefused.cons (hrow : HoldsValid names row r) (h : FirstRefused names (i + 1) rows j e) :
    FirstRefused names i (row :: rows) (j + 1) e where
  refused := by
    obtain ⟨row', hrow', hrefused⟩ := h.refused
    rw [Nat.add_right_comm] at hrefused
    exact ⟨row', hrow', hrefused⟩
  before := by
    intro j' hj' row' hrow'
    cases j' with
    | zero =>
      cases hrow'
      exact ⟨r, hrow⟩
    | succ j' => exact h.before j' (Nat.lt_of_succ_lt_succ hj') row' hrow'

/-- All rows hold valid rounds, or one is the first that is refused. -/
theorem forall_holdsValid_or_firstRefused (names : List String) (i : Nat) (rows : List (List String)) :
    (∃ rs, List.Forall₂ (HoldsValid names) rows rs) ∨ ∃ j e, FirstRefused names i rows j e := by
  induction rows generalizing i with
  | nil => exact .inl ⟨[], .nil⟩
  | cons row rows ih =>
    rcases holdsValid_or_refused names row i with ⟨r, hr⟩ | ⟨e, he⟩
    · rcases ih (i + 1) with ⟨rs, hrs⟩ | ⟨j, e, he⟩
      · exact .inl ⟨r :: rs, .cons hr hrs⟩
      · exact .inr ⟨j + 1, e, he.cons hr⟩
    · exact .inr ⟨0, e, ⟨row, rfl, he⟩, fun j' hj' => absurd hj' (Nat.not_lt_zero j')⟩

/-- The induction is on the rows, as the reading goes. -/
theorem roundsFrom_of_forall (h : names.Nodup) (hrows : List.Forall₂ (HoldsValid names) rows rs) :
    roundsFrom (some names) i (rows.map .ok) = .ok rs := by
  induction hrows generalizing i with
  | nil => rfl
  | cons hrow _ ih => rw [List.map_cons, roundsFrom_of_holdsValid h hrow, ih, ok_bind]

theorem roundsFrom_of_firstRefused (h : names.Nodup) (hfirst : FirstRefused names i rows j e) :
    roundsFrom (some names) i (rows.map .ok) = .error e := by
  induction rows generalizing i j with
  | nil =>
    obtain ⟨row, hrow, _⟩ := hfirst.refused
    cases hrow
  | cons row rows ih =>
    obtain ⟨row', hrow', hrefused⟩ := hfirst.refused
    rw [List.map_cons]
    cases j with
    | zero =>
      cases hrow'
      exact roundsFrom_of_refused h hrefused _
    | succ j =>
      obtain ⟨r, hr⟩ := hfirst.before 0 (Nat.succ_pos j) row rfl
      have hindex : i + (j + 1) = i + 1 + j := by omega
      rw [hindex] at hrefused
      have hrest : FirstRefused names (i + 1) rows j e :=
        ⟨⟨row', hrow', hrefused⟩, fun j' hj' row' => hfirst.before (j' + 1) (Nat.succ_lt_succ hj') row'⟩
      rw [roundsFrom_of_holdsValid h hr, ih hrest, error_bind]

theorem roundsFrom_eq_ok_iff (h : names.Nodup) :
    roundsFrom (some names) i (rows.map .ok) = .ok rs ↔ List.Forall₂ (HoldsValid names) rows rs := by
  refine ⟨fun hok => ?_, roundsFrom_of_forall h⟩
  rcases forall_holdsValid_or_firstRefused names i rows with ⟨rs', hrs'⟩ | ⟨j, e, he⟩
  · cases hok.symm.trans (roundsFrom_of_forall h hrs')
    exact hrs'
  · cases hok.symm.trans (roundsFrom_of_firstRefused h he)

theorem roundsFrom_eq_error_iff (h : names.Nodup) :
    roundsFrom (some names) i (rows.map .ok) = .error e ↔ ∃ j, FirstRefused names i rows j e := by
  refine ⟨fun herror => ?_, fun ⟨j, hj⟩ => roundsFrom_of_firstRefused h hj⟩
  rcases forall_holdsValid_or_firstRefused names i rows with ⟨rs, hrs⟩ | ⟨j, e', he'⟩
  · cases herror.symm.trans (roundsFrom_of_forall h hrs)
  · cases herror.symm.trans (roundsFrom_of_firstRefused h he')
    exact ⟨j, he'⟩

/-- A table whose rows all hold a round has the two columns, if it has any row. -/
theorem columns_of_forall (h : ∀ row ∈ rows, ∃ r, HoldsValid names row r) :
    rows = [] ∨ "work_amount" ∈ names ∧ "round_duration" ∈ names := by
  cases rows with
  | nil => exact .inl rfl
  | cons row rows =>
    obtain ⟨r, hr⟩ := h row List.mem_cons_self
    exact .inr ⟨hr.holds.work.mem, hr.holds.duration.mem⟩

theorem exists_forall₂_iff :
    (∃ rs, List.Forall₂ (HoldsValid names) rows rs) ↔ ∀ row ∈ rows, ∃ r, HoldsValid names row r := by
  induction rows with
  | nil => simp
  | cons row rows ih =>
    rw [List.forall_mem_cons, ← ih]
    refine ⟨fun h => ?_, fun h => ?_⟩
    · obtain ⟨rs, hrs⟩ := h
      cases hrs with
      | cons hr hrs => exact ⟨⟨_, hr⟩, _, hrs⟩
    · obtain ⟨⟨r, hr⟩, rs, hrs⟩ := h
      exact ⟨r :: rs, .cons hr hrs⟩

/-- Rows with the same fields under the two names are read alike. -/
theorem roundsFrom_rearranged (h : names.Nodup) (h' : names'.Nodup)
    (hrows : List.Forall₂ (fun row row' => Rearranged roundColumns names row names' row') rows rows') :
    roundsFrom (some names') i (rows'.map .ok) = roundsFrom (some names) i (rows.map .ok) := by
  induction hrows generalizing i with
  | nil => rfl
  | @cons row row' rows rows' hrow _ ih =>
    have hnumber : ∀ name ∈ roundColumns, ∀ position,
        number? (some names') position name row' = number? (some names) position name row :=
      fun name hname position => hrow.number?_eq hname h h'
    have hround : roundOfRow (some names') (.ok row') = roundOfRow (some names) (.ok row) := by
      rw [roundOfRow, roundOfRow, ok_bind, ok_bind, hnumber _ (by simp [roundColumns]),
        hnumber _ (by simp [roundColumns])]
    rw [List.map_cons, List.map_cons, roundsFrom, roundsFrom, hround, ih]

/-- **Rounds are read from the two named columns alone.** Of a table there are rounds exactly if it has both
    columns or no rows, and every row has two positive finite numbers under the two names; they are then
    these pairs, row by row. Otherwise the first row is named for which this does not hold: as malformed
    when under one of the names there is no number, and as invalid when the numbers are there but the
    work, or else the duration, is not positive and finite. Permuting the columns together with the header,
    or adding columns of other names, changes neither the rounds nor the failure. Failures are compared up to
    the words of the reader of records: those name the position of a field, which may change and is
    not kept (`DataFault.undecodable`). -/
theorem readRounds_named (h : HoldsTable bytes names rows) :
    ((∃ rs, readRounds bytes = .ok rs) ↔
      (rows = [] ∨ "work_amount" ∈ names ∧ "round_duration" ∈ names) ∧
        ∀ row ∈ rows, ∃ r, HoldsRound names row r ∧ Arith.IsPositive r.work ∧ Arith.IsPositive r.duration) ∧
    (∀ rs, readRounds bytes = .ok rs → List.Forall₂ (HoldsRound names) rows rs) ∧
    (∀ e, readRounds bytes = .error e ↔
      ∃ j row, rows[j]? = some row ∧ Refused names row (j + 1) e ∧
        ∀ j' < j, ∀ row', rows[j']? = some row' → ∃ r, HoldsValid names row' r) ∧
    (∀ i words, (malformedRow i).message words = s!"Malformed round record {i}: " ++ words .undecodable ∧
      ∀ cause, (invalidRow i cause).message words =
        s!"Invalid round record {i}: " ++ (Failure.fault (.invalid cause)).message words) ∧
    ∀ bytes' names' rows', HoldsTable bytes' names' rows' →
      List.Forall₂ (fun row row' => Rearranged roundColumns names row names' row') rows rows' →
      readRounds bytes' = readRounds bytes := by
  have hread : ∀ bytes names rows, HoldsTable bytes names rows →
      readRounds bytes = roundsFrom (some names) 1 (rows.map .ok) := by
    intro bytes names rows h
    rw [readRounds, h.named_eq, roundsOfTable]
  simp only [hread bytes names rows h, roundsFrom_eq_ok_iff h.distinct, roundsFrom_eq_error_iff h.distinct]
  refine ⟨?_, fun rs hrs => hrs.imp fun _ _ hr => hr.holds, fun e => ?_, fun i words => ?_, ?_⟩
  · rw [exists_forall₂_iff]
    refine ⟨fun hall => ⟨columns_of_forall hall, fun row hrow => ?_⟩, fun hall row hrow => ?_⟩
    · obtain ⟨r, hr⟩ := hall row hrow
      exact ⟨r, hr.holds, hr.valid.work, hr.valid.duration⟩
    · obtain ⟨r, hholds, hwork, hduration⟩ := hall.2 row hrow
      exact ⟨r, hholds, hwork, hduration⟩
  · refine ⟨fun hfirst => ?_, fun hfirst => ?_⟩
    · obtain ⟨j, ⟨row, hrow, hrefused⟩, hbefore⟩ := hfirst
      rw [Nat.add_comm] at hrefused
      exact ⟨j, row, hrow, hrefused, hbefore⟩
    · obtain ⟨j, row, hrow, hrefused, hbefore⟩ := hfirst
      rw [Nat.add_comm] at hrefused
      exact ⟨j, ⟨row, hrow, hrefused⟩, hbefore⟩
  · exact ⟨rfl, fun _ => rfl⟩
  · intro bytes' names' rows' h' hrows
    rw [hread bytes' names' rows' h']
    exact roundsFrom_rearranged h.distinct h'.distinct hrows

end Rows

/-- Two rounds in a table of two columns. -/
def twoRounds : List UInt8 := "work_amount,round_duration\n100,50\n200,100.5\n".toUTF8.toList

/-- The same rounds, the duration first and numbered. -/
def numberedRounds : List UInt8 :=
  "round,round_duration, work_amount\n0,50,100\n1,100.5,200\n".toUTF8.toList

theorem holdsTable_twoRounds : HoldsTable twoRounds roundColumns [["100", "50"], ["200", "100.5"]] where
  records := .inl (by decide +kernel)
  distinct := by decide
  width := by decide

theorem holdsTable_numberedRounds : HoldsTable numberedRounds ["round", "round_duration", "work_amount"]
    [["0", "50", "100"], ["1", "100.5", "200"]] where
  records := .inl (by decide +kernel)
  distinct := by decide
  width := by decide

theorem exists_holdsRound {work duration : String}
    (hwork : (Decimal.readNumber? work).any (fun x => decide (Arith.IsPositive x)) = true)
    (hduration : (Decimal.readNumber? duration).any (fun x => decide (Arith.IsPositive x)) = true) :
    ∃ r, HoldsRound roundColumns [work, duration] r ∧ Arith.IsPositive r.work ∧ Arith.IsPositive r.duration := by
  obtain ⟨x, hx, hxpos⟩ := (Option.any_eq_true _ _).mp hwork
  obtain ⟨y, hy, hypos⟩ := (Option.any_eq_true _ _).mp hduration
  exact ⟨⟨x, y⟩, ⟨⟨work, by simp [roundColumns], hx⟩, ⟨duration, by simp [roundColumns], hy⟩⟩,
    of_decide_eq_true hxpos, of_decide_eq_true hypos⟩

/-- Both tables give the two rounds. -/
theorem readRounds_named_two : ∃ rs, readRounds twoRounds = .ok rs ∧ readRounds numberedRounds = .ok rs ∧
    List.Forall₂ (HoldsRound roundColumns) [["100", "50"], ["200", "100.5"]] rs := by
  obtain ⟨hok, hrounds, _, _, hsame⟩ := readRounds_named holdsTable_twoRounds
  have hrows : ∀ row ∈ [["100", "50"], ["200", "100.5"]], ∃ r, HoldsRound roundColumns row r ∧
      Arith.IsPositive r.work ∧ Arith.IsPositive r.duration := by
    intro row hrow
    rcases List.mem_pair.mp hrow with rfl | rfl
    · exact exists_holdsRound (by decide +kernel) (by decide +kernel)
    · exact exists_holdsRound (by decide +kernel) (by decide +kernel)
  obtain ⟨rs, hrs⟩ := hok.mpr ⟨.inr (by simp [roundColumns]), hrows⟩
  have hnumbered : readRounds numberedRounds = readRounds twoRounds := by
    refine hsame _ _ _ holdsTable_numberedRounds
      (.cons ⟨[("round", "0")], ?_, ?_⟩ (.cons ⟨[("round", "1")], ?_, ?_⟩ .nil))
    all_goals decide
  exact ⟨rs, hrs, hnumbered.trans hrs, hrounds rs hrs⟩

end BatchMeans.Table
