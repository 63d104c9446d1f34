import BatchMeans.Proofs.Table.Lines
import BatchMeans.Proofs.Table.SeriesColumn

/- Passing over the first lines of a text.

   What is passed over is records, and lines are other things. A series of two
   runs of records is one of the first run and one of the second, where as many
   records are still to be passed over as the first run had too few
   (`seriesOfRecords_append`). With the records of lines as the first run this says
   what becomes of a text of `k` lines and a rest when `k` records are passed over
   (`readSeries_append`): the rest is read alone if the lines hold `k` readable
   records. It is not in any other case, because a series has a reading for
   each record that is not passed over: a rest with more readings than the lines
   have records tells how many of them were (`oneRecordEach_of_deleted`). -/
namespace BatchMeans.Table
variable {field k : Nat} {lines : List TextLine} {rest bytes : List UInt8} {xs : List Float}

/-- Both are the same series, or neither is one. -/
def SameSeries (a b : Loaded (List Float)) : Prop := ∀ xs, a = .ok xs ↔ b = .ok xs

/-- All fields of the records are UTF-8. -/
def Readable (records : List (List (List UInt8))) : Prop := ∀ fields ∈ records, decodeRecord? fields ≠ none

/-- Together the lines hold as many records as they are, all of them readable, and no quote is left open. -/
structure OneRecordEach (lines : List TextLine) : Prop where
  outside : OutsideQuotes (textOf lines)
  readable : Readable (splitRecords (textOf lines))
  length_eq : (splitRecords (textOf lines)).length = lines.length

/-! ## Two runs of records -/

theorem forall₂_append_left_iff {β γ : Type} {R : β → γ → Prop} {as bs : List β} {cs : List γ} :
    List.Forall₂ R (as ++ bs) cs ↔
      ∃ cs₁ cs₂, List.Forall₂ R as cs₁ ∧ List.Forall₂ R bs cs₂ ∧ cs = cs₁ ++ cs₂ := by
  refine ⟨fun h => ?_, fun h => ?_⟩
  · have htake := List.forall₂_take as.length h
    have hdrop := List.forall₂_drop as.length h
    rw [List.take_left] at htake
    rw [List.drop_left] at hdrop
    exact ⟨_, _, htake, hdrop, (List.take_append_drop as.length cs).symm⟩
  · obtain ⟨cs₁, cs₂, has, hbs, rfl⟩ := h
    exact List.rel_append has hbs

/-- The second run is read as if it stood alone, with fewer records to pass over. -/
theorem seriesOfRecords_append {first second : List (Option (List String))} :
    seriesOfRecords field (some k) (first ++ second) = .ok xs ↔
      (∀ record ∈ first, record ≠ none) ∧ ∃ ys zs, List.Forall₂ (Holds field) (first.drop k) ys ∧
        seriesOfRecords field (some (k - first.length)) second = .ok zs ∧ xs = ys ++ zs := by
  rw [seriesOfRecords_eq_ok_iff, List.drop_append, forall₂_append_left_iff, List.forall_mem_append]
  refine ⟨fun h => ?_, fun h => ?_⟩
  · obtain ⟨⟨hfirst, hsecond⟩, ys, zs, hys, hzs, rfl⟩ := h
    exact ⟨hfirst, ys, zs, hys, seriesOfRecords_eq_ok_iff.mpr ⟨hsecond, hzs⟩, rfl⟩
  · obtain ⟨hfirst, ys, zs, hys, hok, rfl⟩ := h
    obtain ⟨hsecond, hzs⟩ := seriesOfRecords_eq_ok_iff.mp hok
    exact ⟨⟨hfirst, hsecond⟩, ys, zs, hys, hzs, rfl⟩

/-- A series has a reading for each record that is not passed over. -/
theorem length_of_readSeries (h : readSeries bytes field (some k) = .ok xs) :
    xs.length = (splitRecords bytes).length - k := by
  have hread := forall₂_of_seriesOfRecords h
  rw [← hread.length_eq, List.length_drop, List.length_map]

/-! ## Lines and a rest -/

theorem readSeries_append (houtside : OutsideQuotes (textOf lines)) (hrest : Unmarked rest) :
    readSeries (textOf lines ++ rest) field (some k) = .ok xs ↔
      Readable (splitRecords (textOf lines)) ∧ ∃ ys zs,
        List.Forall₂ (Holds field) (((splitRecords (textOf lines)).map decodeRecord?).drop k) ys ∧
        readSeries rest field (some (k - (splitRecords (textOf lines)).length)) = .ok zs ∧ xs = ys ++ zs := by
  rw [readSeries, splitRecords_textOf_append houtside hrest, List.map_append, seriesOfRecords_append,
    List.length_map, List.forall_mem_map]
  rfl

/-- Where the lines hold no more records than are passed over, the rest is read alone. -/
theorem sameSeries_of_length_le (houtside : OutsideQuotes (textOf lines))
    (hreadable : Readable (splitRecords (textOf lines)))
    (hlength : (splitRecords (textOf lines)).length ≤ k) (hrest : Unmarked rest) :
    SameSeries (readSeries (textOf lines ++ rest) field (some k))
      (readSeries rest field (some (k - (splitRecords (textOf lines)).length))) := by
  intro xs
  have hdrop : ((splitRecords (textOf lines)).map decodeRecord?).drop k = [] :=
    List.drop_eq_nil_of_le (by rwa [List.length_map])
  rw [readSeries_append houtside hrest, hdrop]
  refine ⟨fun h => ?_, fun h => ⟨hreadable, [], xs, .nil, h, rfl⟩⟩
  obtain ⟨-, ys, zs, hys, hzs, rfl⟩ := h
  cases hys
  exact hzs

theorem OneRecordEach.sameSeries (h : OneRecordEach lines) (hrest : Unmarked rest) :
    SameSeries (readSeries (textOf lines ++ rest) field (some lines.length))
      (readSeries rest field (some 0)) := by
  have hskip : lines.length - (splitRecords (textOf lines)).length = 0 := by
    rw [h.length_eq, Nat.sub_self]
  rw [← hskip]
  exact sameSeries_of_length_le h.outside h.readable (Nat.le_of_eq h.length_eq) hrest

/-- Whole lines that are blank are passed over in the rest. -/
theorem sameSeries_of_whole (hmark : Unmarked (textOf lines)) (hwhole : ∀ line ∈ lines, line.Whole)
    (hreadable : Readable (splitRecords (textOf lines))) (hrest : Unmarked rest) :
    SameSeries (readSeries (textOf lines ++ rest) field (some lines.length))
      (readSeries rest field (some (lines.countP TextLine.blank))) := by
  have hclosed : ∀ line ∈ lines, line.Closed := fun line hline => (hwhole line hline).closed
  have hlength : (splitRecords (textOf lines)).length + lines.countP TextLine.blank = lines.length := by
    rw [splitRecords_textOf hclosed hmark, length_records_add_blank hwhole]
  have hle : (splitRecords (textOf lines)).length ≤ lines.length := by omega
  have hblank : lines.length - (splitRecords (textOf lines)).length = lines.countP TextLine.blank := by omega
  rw [← hblank]
  exact sameSeries_of_length_le (outsideQuotes_textOf hclosed hmark) hreadable hle hrest

/-! ## A rest with many readings -/

/-- A line of one record whose last field, at the given position, is the number one. -/
def oneAt (field : Nat) : TextLine where
  bytes := List.replicate field 44 ++ [49]
  no_newline := by
    intro h
    rcases List.mem_append.mp h with h | h
    · exact absurd (List.eq_of_mem_replicate h) (by decide)
    · exact absurd (List.mem_singleton.mp h) (by decide)

theorem foldl_commas (field : Nat) : ∃ place, (place = Place.recordStart ∨ place = .fieldStart) ∧
    (List.replicate field 44).foldl Splitter.step .start = ⟨place, [], List.replicate field [], []⟩ := by
  induction field with
  | zero => exact ⟨.recordStart, .inl rfl, rfl⟩
  | succ field ih =>
    obtain ⟨place, hplace, hfold⟩ := ih
    refine ⟨.fieldStart, .inr rfl, ?_⟩
    rw [List.replicate_succ', List.foldl_append, hfold, List.replicate_succ]
    rcases hplace with rfl | rfl <;> rfl

theorem foldl_oneAt (field : Nat) : (oneAt field).bytes.foldl Splitter.step .start =
    ⟨.inField, [49], List.replicate field [], []⟩ := by
  obtain ⟨place, hplace, hfold⟩ := foldl_commas field
  rw [oneAt, List.foldl_append, hfold]
  rcases hplace with rfl | rfl <;> rfl

theorem records_oneAt (field : Nat) : (oneAt field).records = [List.replicate field [] ++ [[49]]] := by
  rw [TextLine.records, foldl_oneAt]
  simp [Splitter.finish, Splitter.endRecord]

theorem closed_oneAt (field : Nat) : (oneAt field).Closed := by
  rw [TextLine.Closed, foldl_oneAt]
  intro h
  cases h

theorem decodeRecord?_oneAt (field : Nat) :
    decodeRecord? (List.replicate field [] ++ [[49]]) = some (List.replicate field "" ++ ["1"]) := by
  induction field with
  | zero => decide +kernel
  | succ field ih =>
    have hempty : decodeField? [] = some "" := by decide +kernel
    rw [decodeRecord?] at ih
    rw [List.replicate_succ, List.cons_append, decodeRecord?, List.mapM_cons, hempty, ih]
    rfl

theorem exists_holds_oneAt (field : Nat) :
    ∃ x, Holds field (decodeRecord? (List.replicate field [] ++ [[49]])) x := by
  have hone : (reading? 0 ["1"]).isSome = true := by decide +kernel
  obtain ⟨x, hx⟩ := Option.isSome_iff_exists.mp hone
  obtain ⟨fields, text, hfields, htext, hnumber, hfinite⟩ := reading?_eq_some_iff.mp hx
  cases hfields
  cases htext
  refine ⟨x, _, "1", decodeRecord?_oneAt field, ?_, hnumber, hfinite⟩
  simp

/-- A text of `count` such lines. -/
def onesAt (field count : Nat) : List UInt8 := textOf (List.replicate count (oneAt field))

theorem unmarked_of_ne {b : UInt8} (h : b ≠ 0xEF) : Unmarked (b :: bytes) := by
  unfold Unmarked dropMark
  split
  next heq =>
    cases heq
    exact absurd rfl h
  next => rfl

theorem unmarked_onesAt (field count : Nat) : Unmarked (onesAt field count) := by
  cases count with
  | zero => rfl
  | succ count =>
    cases field with
    | zero => exact unmarked_of_ne (by decide)
    | succ field => exact unmarked_of_ne (by decide)

theorem isQuote_onesAt (field count : Nat) : ∀ b ∈ onesAt field count, Splitter.isQuote b = false := by
  intro b hb
  obtain ⟨line, hline, hb⟩ := List.mem_flatMap.mp hb
  rw [List.eq_of_mem_replicate hline, oneAt, List.append_assoc] at hb
  rcases List.mem_append.mp hb with hb | hb
  · rw [List.eq_of_mem_replicate hb]
    rfl
  · have hend : ∀ b ∈ ([49, 10] : List UInt8), Splitter.isQuote b = false :=
      List.forall_mem_cons.mpr ⟨rfl, List.forall_mem_singleton.mpr rfl⟩
    exact hend b hb

theorem splitRecords_onesAt (field count : Nat) :
    splitRecords (onesAt field count) = List.replicate count (List.replicate field [] ++ [[49]]) := by
  have hclosed : ∀ line ∈ List.replicate count (oneAt field), line.Closed := by
    intro line hline
    rw [List.eq_of_mem_replicate hline]
    exact closed_oneAt field
  rw [onesAt, splitRecords_textOf hclosed (unmarked_onesAt field count), List.flatMap_replicate]
  simp [records_oneAt]

theorem exists_readSeries_onesAt (field count : Nat) :
    ∃ xs, readSeries (onesAt field count) field (some 0) = .ok xs := by
  refine exists_seriesOfRecords_iff.mpr fun i record hrecord => ?_
  obtain ⟨x, hx⟩ := exists_holds_oneAt field
  rw [splitRecords_onesAt, List.map_replicate] at hrecord
  rw [List.eq_of_mem_replicate (List.mem_of_getElem? hrecord)]
  refine ⟨?_, fun _ => ⟨x, hx⟩⟩
  rw [decodeRecord?_oneAt]
  exact Option.some_ne_none _

/-- If passing over as many records as there are lines deletes the lines from every text, the lines hold one
    record each. -/
theorem oneRecordEach_of_deleted (h : ∀ rest, Unmarked rest →
    SameSeries (readSeries (textOf lines ++ rest) field (some lines.length))
      (readSeries rest field (some 0))) : OneRecordEach lines := by
  -- More readings than an open quote or too many records in the lines could leave.
  have hrest := unmarked_onesAt field ((splitRecords (textOf lines)).length + 2)
  obtain ⟨xs, hxs⟩ := exists_readSeries_onesAt field ((splitRecords (textOf lines)).length + 2)
  have htext := (h _ hrest xs).mpr hxs
  have hcount := length_of_readSeries hxs
  have hcount' := length_of_readSeries htext
  rw [splitRecords_onesAt, List.length_replicate] at hcount
  by_cases houtside : OutsideQuotes (textOf lines)
  · rw [splitRecords_textOf_append houtside hrest, List.length_append, splitRecords_onesAt,
      List.length_replicate] at hcount'
    exact ⟨houtside, ((readSeries_append houtside hrest).mp htext).1, by omega⟩
  · rw [length_splitRecords_inQuotes houtside hrest (isQuote_onesAt field _)] at hcount'
    omega

/-! ## Deleting the first lines -/

/-- **Passing over as many records as there are lines deletes the lines exactly if they hold one record each.**
    Whatever follows the lines, it gives the same series with them as alone, exactly if they leave no quote
    open and together hold as many records as they are, all readable. Where no quote is left open, the
    records that are too many are read first, and as many as are too few are passed over in the rest. So
    of lines that close their quotes and have carriage returns only at their ends, each blank one costs
    the rest a record. A byte order mark is one at the front of a text only, so the rest has none. -/
theorem readSeries_skipped_lines (field : Nat) (lines : List TextLine) :
    ((∀ rest, Unmarked rest → SameSeries (readSeries (textOf lines ++ rest) field (some lines.length))
        (readSeries rest field (some 0))) ↔ OneRecordEach lines) ∧
    (OutsideQuotes (textOf lines) → ∀ rest, Unmarked rest → ∀ xs,
      (readSeries (textOf lines ++ rest) field (some lines.length) = .ok xs ↔
        Readable (splitRecords (textOf lines)) ∧ ∃ ys zs,
          List.Forall₂ (Holds field) (((splitRecords (textOf lines)).map decodeRecord?).drop lines.length) ys ∧
          readSeries rest field (some (lines.length - (splitRecords (textOf lines)).length)) = .ok zs ∧
          xs = ys ++ zs)) ∧
    (Unmarked (textOf lines) → (∀ line ∈ lines, line.Whole) → Readable (splitRecords (textOf lines)) →
      ∀ rest, Unmarked rest → SameSeries (readSeries (textOf lines ++ rest) field (some lines.length))
        (readSeries rest field (some (lines.countP TextLine.blank)))) :=
  ⟨⟨oneRecordEach_of_deleted, fun h _ hrest => h.sameSeries hrest⟩,
    fun houtside _ hrest _ => readSeries_append houtside hrest,
    fun hmark hwhole hreadable _ hrest => sameSeries_of_whole hmark hwhole hreadable hrest⟩

theorem exists_eq_ok {a : Loaded (List Float)} (h : a.isOk = true) : ∃ xs, a = .ok xs := by
  cases a with
  | error e => exact nomatch h
  | ok xs => exact ⟨xs, rfl⟩

/-- An empty line. -/
def emptyLine : TextLine := ⟨[], List.not_mem_nil⟩

/-- The line `t,v`. -/
def headerLine : TextLine := ⟨[116, 44, 118], by decide⟩

/-- The lines `1` and `2`. -/
def oneTwo : List UInt8 := [49, 10, 50, 10]

/-- The lines `1,5` and `2,6`. -/
def twoRows : List UInt8 := [49, 44, 53, 10, 50, 44, 54, 10]

/-- The line `1`, a carriage return, `2`. -/
def returnLine : TextLine := ⟨[49, 13, 50], by decide⟩

/-- A header is deleted by passing over one record. Behind an empty line two records reach a row further, and
    of a line with a carriage return in it one record does not reach the end. -/
theorem readSeries_skipped_lines_header :
    (∀ rest, Unmarked rest → SameSeries (readSeries (textOf [headerLine] ++ rest) 1 (some 1))
      (readSeries rest 1 (some 0))) ∧
    SameSeries (readSeries (textOf [emptyLine, headerLine] ++ twoRows) 1 (some 2))
      (readSeries twoRows 1 (some 1)) ∧
    ∃ ys zs, ys.length = 1 ∧ readSeries oneTwo 0 (some 0) = .ok zs ∧
      readSeries (textOf [returnLine] ++ oneTwo) 0 (some 1) = .ok (ys ++ zs) := by
  have hheader : OneRecordEach [headerLine] :=
    ⟨fun h => (nomatch h), by unfold Readable; decide +kernel, rfl⟩
  have hempty : emptyLine.Whole := ⟨fun h => (nomatch h), [], 0, rfl, List.not_mem_nil⟩
  have hwhole : ∀ line ∈ [emptyLine, headerLine], line.Whole :=
    List.forall_mem_cons.mpr ⟨hempty, List.forall_mem_singleton.mpr
      ⟨fun h => (nomatch h), headerLine.bytes, 0, (List.append_nil _).symm, by decide⟩⟩
  have hreadable : Readable (splitRecords (textOf [emptyLine, headerLine])) := by
    unfold Readable
    decide +kernel
  have houtside : OutsideQuotes (textOf [returnLine]) := fun h => (nomatch h)
  have hok : (readSeries (textOf [returnLine] ++ oneTwo) 0 (some 1)).isOk = true := by decide +kernel
  obtain ⟨xs, hxs⟩ := exists_eq_ok hok
  obtain ⟨-, ys, zs, hys, hzs, rfl⟩ :=
    ((readSeries_skipped_lines 0 [returnLine]).2.1 houtside oneTwo rfl xs).mp hxs
  exact ⟨(readSeries_skipped_lines 1 [headerLine]).1.mpr hheader,
    (readSeries_skipped_lines 1 [emptyLine, headerLine]).2.2 rfl hwhole hreadable twoRows rfl,
    ys, zs, hys.length_eq.symm, hzs, hxs⟩

/-- An empty line is no record: the first reading after it is passed over. -/
theorem readSeries_emptyLine : ¬ SameSeries (readSeries (textOf [emptyLine] ++ oneTwo) 0 (some 1))
    (readSeries oneTwo 0 (some 0)) := by
  intro h
  have hok : (readSeries oneTwo 0 (some 0)).isOk = true := by decide +kernel
  obtain ⟨xs, hxs⟩ := exists_eq_ok hok
  have htwo : xs.length = 2 := length_of_readSeries hxs
  have hone : xs.length = 1 := length_of_readSeries ((h xs).mpr hxs)
  omega

end BatchMeans.Table
