import BatchMeans.Proofs.Table.Record

/- The lines of a text and the records they hold.

   Finished records play no part in what follows them (`step_after`), and a line
   end outside quotes leaves nothing unfinished (`step_lineEnd`). So where lines
   leave no quote open, the records of a text that begins with them are theirs
   and then those of the rest (`splitRecords_textOf_append`).

   A line need not hold one record: a blank line holds none, a carriage return
   within a line ends a record, and a newline within quotes ends none. A line that
   closes its quotes and has carriage returns only at its end holds one record,
   unless it is blank (`length_records`). -/
namespace BatchMeans.Table

namespace Splitter
variable {s : Splitter} {b : UInt8} {bytes : List UInt8}

/-! ## Finished records -/

/-- The same place in a text with more records before it; the newest comes first. -/
def after (older : List (List (List UInt8))) (s : Splitter) : Splitter :=
  { s with records := s.records ++ older }

theorem plainByte_after (older : List (List (List UInt8))) (s : Splitter) (b : UInt8) :
    (s.after older).plainByte b = (s.plainByte b).after older := by
  unfold plainByte
  split
  · rfl
  · split <;> rfl

theorem firstByte_after (older : List (List (List UInt8))) (s : Splitter) (b : UInt8) :
    (s.after older).firstByte b = (s.firstByte b).after older := by
  unfold firstByte
  split
  · rfl
  · exact plainByte_after older s b

theorem step_after (older : List (List (List UInt8))) (s : Splitter) (b : UInt8) :
    (s.after older).step b = (s.step b).after older := by
  have hfirst := firstByte_after older s b
  have hplain := plainByte_after older s b
  obtain ⟨place, field, fields, records⟩ := s
  cases place with
  | recordStart =>
    simp only [step, after] at hfirst ⊢
    split
    · rfl
    · exact hfirst
  | fieldStart => exact hfirst
  | inField => exact hplain
  | inQuotes =>
    simp only [step, after]
    split <;> rfl
  | afterQuote =>
    simp only [step, after] at hplain ⊢
    split
    · rfl
    · exact hplain

theorem foldl_after (older : List (List (List UInt8))) (bytes : List UInt8) (s : Splitter) :
    bytes.foldl step (s.after older) = (bytes.foldl step s).after older := by
  induction bytes generalizing s with
  | nil => rfl
  | cons b rest ih => rw [List.foldl_cons, List.foldl_cons, step_after, ih]

theorem finish_after (older : List (List (List UInt8))) (s : Splitter) :
    (s.after older).finish = older.reverse ++ s.finish := by
  obtain ⟨place, field, fields, records⟩ := s
  cases place <;> simp [finish, after, endRecord]

theorem after_after (older newer : List (List (List UInt8))) (s : Splitter) :
    (s.after newer).after older = s.after (newer ++ older) := by
  simp only [after, List.append_assoc]

theorem finish_start_after (older : List (List (List UInt8))) :
    (start.after older).finish = older.reverse := by
  rw [finish_after]
  exact List.append_nil _

/-! ## Line ends -/

theorem isLineEnd_iff : isLineEnd b = true ↔ b = 10 ∨ b = 13 := by
  simp [isLineEnd]

/-- Between two records nothing is unfinished. -/
def Tidy (s : Splitter) : Prop := s.place = .recordStart → s.field = [] ∧ s.fields = []

theorem tidy_plainByte (s : Splitter) (b : UInt8) : (s.plainByte b).Tidy := by
  unfold plainByte
  split
  · exact fun h => nomatch h
  · split
    · exact fun _ => ⟨rfl, rfl⟩
    · exact fun h => nomatch h

theorem tidy_firstByte (s : Splitter) (b : UInt8) : (s.firstByte b).Tidy := by
  unfold firstByte
  split
  · exact fun h => nomatch h
  · exact tidy_plainByte s b

theorem tidy_step (h : s.Tidy) (b : UInt8) : (s.step b).Tidy := by
  unfold step
  split
  · split
    · exact h
    · exact tidy_firstByte s b
  · exact tidy_firstByte s b
  · exact tidy_plainByte s b
  · split <;> exact fun h => nomatch h
  · split
    · exact fun h => nomatch h
    · exact tidy_plainByte s b

/-- Whatever has been read from the start of a text, nothing is unfinished between two records. -/
theorem tidy_foldl (bytes : List UInt8) : (bytes.foldl step start).Tidy :=
  List.foldlRecOn bytes step (fun _ => ⟨rfl, rfl⟩) fun _ h b _ => tidy_step h b

/-- A line end outside quotes ends the record, if one has begun. -/
theorem step_lineEnd (ht : s.Tidy) (hs : s.place ≠ .inQuotes) (hb : isLineEnd b = true) :
    s.step b = start.after s.finish.reverse := by
  obtain ⟨hcomma, hquote⟩ : isComma b = false ∧ isQuote b = false := by
    rcases isLineEnd_iff.mp hb with rfl | rfl <;> exact ⟨rfl, rfl⟩
  obtain ⟨place, field, fields, records⟩ := s
  cases place with
  | recordStart =>
    obtain ⟨rfl, rfl⟩ := ht rfl
    simp [step, hb, finish, after, start]
  | inQuotes => exact absurd rfl hs
  | fieldStart | inField | afterQuote =>
    simp [step, firstByte, plainByte, hb, hcomma, hquote, finish, endRecord, after, start]

/-- Within quotes a line end is a byte of the field. -/
theorem step_inQuotes (hs : s.place = .inQuotes) (hb : isQuote b = false) :
    s.step b = s.keep .inQuotes b := by
  simp [step, hs, hb]

theorem foldl_inQuotes (hs : s.place = .inQuotes) (hb : ∀ b ∈ bytes, isQuote b = false) :
    (bytes.foldl step s).place = .inQuotes ∧ (bytes.foldl step s).records = s.records := by
  induction bytes generalizing s with
  | nil => exact ⟨hs, rfl⟩
  | cons b rest ih =>
    have hrest := List.forall_mem_cons.mp hb
    rw [List.foldl_cons, step_inQuotes hs hrest.1]
    exact ih rfl hrest.2

/-- Only a quote closes quotes. -/
theorem place_ne_inQuotes_of_append {init ends : List UInt8} (hends : ∀ b ∈ ends, isQuote b = false)
    (h : ((init ++ ends).foldl step start).place ≠ .inQuotes) :
    (init.foldl step start).place ≠ .inQuotes := by
  intro hq
  rw [List.foldl_append] at h
  exact h (foldl_inQuotes hq hends).1

/-- Line ends outside quotes do not change what has been read. -/
theorem finish_foldl_lineEnds (ht : s.Tidy) (hs : s.place ≠ .inQuotes)
    (hb : ∀ b ∈ bytes, isLineEnd b = true) : (bytes.foldl step s).finish = s.finish := by
  induction bytes generalizing s with
  | nil => rfl
  | cons b rest ih =>
    have hrest := List.forall_mem_cons.mp hb
    have hplace : (start.after s.finish.reverse).place ≠ .inQuotes := by simp [start, after]
    rw [List.foldl_cons, step_lineEnd ht hs hrest.1, ih (fun _ => ⟨rfl, rfl⟩) hplace hrest.2,
      finish_start_after, List.reverse_reverse]

/-- A byte that ends no line is one of the record. -/
theorem step_of_not_lineEnd (s : Splitter) (hb : isLineEnd b = false) :
    (s.step b).place ≠ .recordStart ∧ (s.step b).records = s.records := by
  obtain ⟨place, field, fields, records⟩ := s
  cases place <;> simp only [step, firstByte, plainByte, hb] <;> grind [keep, endField]

/-- Bytes that end no line are at most one record. -/
theorem begun_of_not_lineEnd (hb : ∀ b ∈ bytes, isLineEnd b = false) :
    (bytes.foldl step start).begun = if bytes = [] then 0 else 1 := by
  cases bytes with
  | nil => rfl
  | cons b rest =>
    obtain ⟨hfirst, hrest⟩ := List.forall_mem_cons.mp hb
    have hbegun := List.foldlRecOn (motive := fun s => s.place ≠ .recordStart ∧ s.records = []) rest step
      (step_of_not_lineEnd start hfirst) fun s hs c hc =>
        (step_of_not_lineEnd s (hrest c hc)).imp_right fun h => h.trans hs.2
    rw [List.foldl_cons, begun]
    split
    next hplace => exact absurd hplace hbegun.1
    next => rw [hbegun.2, List.length_nil, if_neg (List.cons_ne_nil b rest)]

end Splitter

/-! ## Lines -/

/-- A line of a text, without the newline that ends it. -/
structure TextLine where
  bytes : List UInt8
  no_newline : 10 ∉ bytes

/-- Lines, each ended by a newline. -/
def textOf (lines : List TextLine) : List UInt8 := lines.flatMap fun line => line.bytes ++ [10]

/-- A text that does not begin with a byte order mark. -/
def Unmarked (bytes : List UInt8) : Prop := dropMark bytes = bytes

/-- A text leaves no quote open. -/
def OutsideQuotes (bytes : List UInt8) : Prop :=
  ((dropMark bytes).foldl Splitter.step .start).place ≠ .inQuotes

variable {lines : List TextLine} {line : TextLine} {rest : List UInt8}

/-- A text of lines is empty or ends with a newline. -/
theorem textOf_ends (lines : List TextLine) : textOf lines = [] ∨ ∃ init, textOf lines = init ++ [10] := by
  rcases List.eq_nil_or_concat lines with rfl | ⟨init, last, rfl⟩
  · exact .inl rfl
  · refine .inr ⟨textOf init ++ last.bytes, ?_⟩
    simp [textOf]

theorem dropMark_cons_cons_cons (a b c : UInt8) (bytes : List UInt8) :
    dropMark (a :: b :: c :: bytes) =
      if a = 0xEF ∧ b = 0xBB ∧ c = 0xBF then bytes else a :: b :: c :: bytes := by
  unfold dropMark
  split
  next heq =>
    cases heq
    rfl
  next hmark =>
    refine (if_neg fun h => ?_).symm
    obtain ⟨rfl, rfl, rfl⟩ := h
    exact hmark bytes rfl

/-- A byte order mark does not reach beyond a line. -/
theorem dropMark_append_newline (bytes rest : List UInt8) :
    dropMark (bytes ++ 10 :: rest) = dropMark bytes ++ 10 :: rest := by
  match bytes with
  | [] => rfl
  | [a] => simp [dropMark]
  | [a, b] => simp [dropMark]
  | a :: b :: c :: bytes =>
    simp only [List.cons_append, dropMark_cons_cons_cons]
    split <;> rfl

theorem dropMark_textOf_append (lines : List TextLine) (hrest : Unmarked rest) :
    dropMark (textOf lines ++ rest) = dropMark (textOf lines) ++ rest := by
  rcases textOf_ends lines with h | ⟨init, h⟩
  · rw [h]
    exact hrest
  · rw [h, List.append_assoc, List.singleton_append, dropMark_append_newline, dropMark_append_newline,
      List.append_assoc, List.singleton_append]

/-- Lines that leave no quote open leave nothing unfinished. -/
theorem foldl_textOf (h : OutsideQuotes (textOf lines)) :
    (dropMark (textOf lines)).foldl Splitter.step .start =
      Splitter.start.after (splitRecords (textOf lines)).reverse := by
  rcases textOf_ends lines with hnil | ⟨init, hinit⟩
  · rw [hnil]
    rfl
  · have hdrop : dropMark (textOf lines) = dropMark init ++ [10] := by
      rw [hinit, dropMark_append_newline]
    rw [OutsideQuotes, hdrop] at h
    have hplace := Splitter.place_ne_inQuotes_of_append (List.forall_mem_singleton.mpr rfl) h
    have hstep := Splitter.step_lineEnd (Splitter.tidy_foldl (dropMark init)) hplace (b := 10) rfl
    rw [splitRecords, hdrop, List.foldl_append, List.foldl_cons, List.foldl_nil, hstep,
      Splitter.finish_start_after, List.reverse_reverse]

/-- The records of a text are those of its first lines and those of the rest. -/
theorem splitRecords_textOf_append (h : OutsideQuotes (textOf lines)) (hrest : Unmarked rest) :
    splitRecords (textOf lines ++ rest) = splitRecords (textOf lines) ++ splitRecords rest := by
  have hsplit : splitRecords rest = (rest.foldl Splitter.step .start).finish := by
    rw [splitRecords, hrest]
  rw [hsplit, splitRecords, dropMark_textOf_append lines hrest, List.foldl_append, foldl_textOf h,
    Splitter.foldl_after, Splitter.finish_after, List.reverse_reverse]

/-- Where a quote is left open and never closed, what follows is one field. -/
theorem length_splitRecords_inQuotes (h : ¬ OutsideQuotes (textOf lines)) (hrest : Unmarked rest)
    (hquote : ∀ b ∈ rest, Splitter.isQuote b = false) :
    (splitRecords (textOf lines ++ rest)).length = (splitRecords (textOf lines)).length := by
  have hplace := Classical.not_not.mp h
  obtain ⟨hplace', hrecords⟩ := Splitter.foldl_inQuotes hplace hquote
  rw [splitRecords, dropMark_textOf_append lines hrest, List.foldl_append, splitRecords,
    Splitter.length_finish, Splitter.length_finish, Splitter.begun, Splitter.begun, hplace, hplace', hrecords]

/-! ## One line after another -/

/-- The records of a line by itself. -/
def TextLine.records (line : TextLine) : List (List (List UInt8)) :=
  (line.bytes.foldl Splitter.step .start).finish

/-- By itself a line leaves no quote open. -/
def TextLine.Closed (line : TextLine) : Prop :=
  (line.bytes.foldl Splitter.step .start).place ≠ .inQuotes

/-- A line that closes its quotes and has carriage returns only at its end. -/
structure TextLine.Whole (line : TextLine) : Prop where
  closed : line.Closed
  returns : ∃ body n, line.bytes = body ++ List.replicate n 13 ∧ 13 ∉ body

/-- A line of nothing but carriage returns. -/
def TextLine.blank (line : TextLine) : Bool := line.bytes.all (· == 13)

theorem foldl_textOf_closed (h : ∀ line ∈ lines, line.Closed) :
    (textOf lines).foldl Splitter.step .start =
      Splitter.start.after (lines.flatMap TextLine.records).reverse := by
  induction lines with
  | nil => rfl
  | cons line rest ih =>
    obtain ⟨hclosed, hrest⟩ := List.forall_mem_cons.mp h
    have hstep := Splitter.step_lineEnd (Splitter.tidy_foldl line.bytes) hclosed (b := 10) rfl
    have hrest := ih hrest
    simp only [textOf, List.flatMap_cons, List.foldl_append, List.foldl_cons, List.foldl_nil] at hrest ⊢
    rw [hstep, Splitter.foldl_after, hrest, Splitter.after_after, List.reverse_append]
    rfl

theorem outsideQuotes_textOf (h : ∀ line ∈ lines, line.Closed) (hmark : Unmarked (textOf lines)) :
    OutsideQuotes (textOf lines) := by
  rw [OutsideQuotes, hmark, foldl_textOf_closed h]
  simp [Splitter.after, Splitter.start]

theorem splitRecords_textOf (h : ∀ line ∈ lines, line.Closed) (hmark : Unmarked (textOf lines)) :
    splitRecords (textOf lines) = lines.flatMap TextLine.records := by
  rw [splitRecords, hmark, foldl_textOf_closed h, Splitter.finish_start_after, List.reverse_reverse]

theorem blank_eq_decide {body : List UInt8} {n : Nat} (hbytes : line.bytes = body ++ List.replicate n 13)
    (hreturn : 13 ∉ body) : line.blank = decide (body = []) := by
  cases body with
  | nil => simp [TextLine.blank, hbytes]
  | cons b rest =>
    have hb : b ≠ 13 := fun h => hreturn (h ▸ List.mem_cons_self)
    simp [TextLine.blank, hbytes, hb]

/-- A whole line holds one record, unless it is blank. -/
theorem length_records (h : line.Whole) : line.records.length = if line.blank then 0 else 1 := by
  obtain ⟨hclosed, body, n, hbytes, hreturn⟩ := h
  have hreplicate : ∀ b ∈ List.replicate n (13 : UInt8), b = 13 := fun _ => List.eq_of_mem_replicate
  have hends : ∀ b ∈ List.replicate n (13 : UInt8), Splitter.isLineEnd b = true :=
    fun b hb => Splitter.isLineEnd_iff.mpr (.inr (hreplicate b hb))
  have hquote : ∀ b ∈ List.replicate n (13 : UInt8), Splitter.isQuote b = false := by
    intro b hb
    rw [hreplicate b hb]
    rfl
  have hnone : ∀ b ∈ body, Splitter.isLineEnd b = false := by
    intro b hb
    rw [Bool.eq_false_iff, ne_eq, Splitter.isLineEnd_iff]
    intro h
    rcases h with rfl | rfl
    · exact line.no_newline (hbytes ▸ List.mem_append_left _ hb)
    · exact hreturn hb
  rw [TextLine.Closed, hbytes] at hclosed
  have hplace := Splitter.place_ne_inQuotes_of_append hquote hclosed
  rw [TextLine.records, hbytes, List.foldl_append,
    Splitter.finish_foldl_lineEnds (Splitter.tidy_foldl body) hplace hends, Splitter.length_finish,
    Splitter.begun_of_not_lineEnd hnone, blank_eq_decide hbytes hreturn]
  simp

/-- Blank lines make up for the records that are missing. -/
theorem length_records_add_blank (h : ∀ line ∈ lines, line.Whole) :
    (lines.flatMap TextLine.records).length + lines.countP TextLine.blank = lines.length := by
  induction lines with
  | nil => rfl
  | cons line rest ih =>
    obtain ⟨hwhole, hrest⟩ := List.forall_mem_cons.mp h
    have hrest := ih hrest
    have hline := length_records hwhole
    rw [List.flatMap_cons, List.length_append, List.countP_cons, List.length_cons, hline]
    split <;> omega

end BatchMeans.Table
