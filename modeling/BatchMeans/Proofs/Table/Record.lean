import BatchMeans.Table.NamedColumns

/- A text has at most as many records as bytes.

   A byte begins at most one record, because a record that has begun ends at the
   line end or the end of the text that follows (`begun_step`). So whatever numbers
   the records of a text counts no further than the bytes of the text. -/
namespace BatchMeans.Table
namespace Splitter
variable {s : Splitter} {b : UInt8}

/-- How many records have begun, the unfinished one included. -/
def begun (s : Splitter) : Nat :=
  match s.place with
  | .recordStart => s.records.length
  | _ => s.records.length + 1

theorem begun_le (s : Splitter) : s.begun ≤ s.records.length + 1 := by
  unfold begun
  split
  · omega
  · omega

theorem length_records_le (s : Splitter) : s.records.length ≤ s.begun := by
  unfold begun
  split
  · omega
  · omega

/-- Outside quotes a byte lets the record go on, or ends it. -/
theorem begun_plainByte (s : Splitter) (b : UInt8) :
    (s.plainByte b).begun ≤ s.records.length + 1 := by
  unfold plainByte
  split
  · exact begun_le s.endField
  · split
    · exact Nat.le_refl _
    · exact begun_le (s.keep .inField b)

theorem begun_firstByte (s : Splitter) (b : UInt8) :
    (s.firstByte b).begun ≤ s.records.length + 1 := by
  unfold firstByte
  split
  · exact Nat.le_refl _
  · exact begun_plainByte s b

/-- A byte begins at most one record. -/
theorem begun_step (s : Splitter) (b : UInt8) : (s.step b).begun ≤ s.begun + 1 := by
  have hlen := s.length_records_le
  have hfirst := begun_firstByte s b
  have hplain := begun_plainByte s b
  unfold step
  split
  · split
    · omega
    · omega
  · omega
  · omega
  · split
    · exact Nat.le_trans (begun_le _) (Nat.succ_le_succ hlen)
    · exact Nat.le_trans (begun_le _) (Nat.succ_le_succ hlen)
  · split
    · exact Nat.le_trans (begun_le _) (Nat.succ_le_succ hlen)
    · omega

theorem begun_foldl (bytes : List UInt8) (s : Splitter) :
    (bytes.foldl step s).begun ≤ s.begun + bytes.length := by
  induction bytes generalizing s with
  | nil => exact Nat.le_refl _
  | cons b rest ih =>
    have hstep := begun_step s b
    have hrest := ih (s.step b)
    rw [List.foldl_cons, List.length_cons]
    omega

theorem length_finish (s : Splitter) : s.finish.length = s.begun := by
  obtain ⟨place, field, fields, records⟩ := s
  cases place <;> exact List.length_reverse

end Splitter

theorem length_dropMark_le (bytes : List UInt8) : (dropMark bytes).length ≤ bytes.length := by
  unfold dropMark
  split
  · simp only [List.length_cons]
    omega
  · exact Nat.le_refl _

theorem length_splitRecords_le (bytes : List UInt8) :
    (splitRecords bytes).length ≤ bytes.length := by
  have hfold := Splitter.begun_foldl (dropMark bytes) Splitter.start
  have hmark := length_dropMark_le bytes
  have hstart : Splitter.start.begun = 0 := rfl
  rw [splitRecords, Splitter.length_finish]
  omega

/-- The header takes one of the records. -/
theorem length_rows_le (records : List (List (List UInt8))) :
    (Named.ofRecords records).rows.length ≤ records.length := by
  cases records with
  | nil => exact Nat.le_refl _
  | cons header rows =>
    show (rows.map _).length ≤ rows.length + 1
    rw [List.length_map]
    omega

end BatchMeans.Table
