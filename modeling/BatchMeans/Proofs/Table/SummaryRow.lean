import BatchMeans.Proofs.Table.Lines
import BatchMeans.Table.SummaryRow

/- A summary is in the bytes that its reader looks at.

   Once enough records have ended, no later byte changes them, because finished
   records play no part in what follows (`finish_after`). So a text that is cut
   after those bytes, or later, has the same first records (`take_splitRecords`),
   and a summary is read from the first two. -/
namespace BatchMeans.Table

variable {count n : Nat} {bytes : List UInt8}

namespace Splitter
variable {s : Splitter}

/-- Finished records stay the first ones. -/
theorem take_finish_foldl (h : count ≤ s.records.length) (bytes : List UInt8) :
    (bytes.foldl step s).finish.take count = s.records.reverse.take count := by
  have hs : s = (Splitter.mk s.place s.field s.fields []).after s.records := by
    rw [after, List.nil_append]
  have hfinish : (bytes.foldl step s).finish =
      s.records.reverse ++ (bytes.foldl step ⟨s.place, s.field, s.fields, []⟩).finish := by
    rw [← finish_after, ← foldl_after, ← hs]
  rw [hfinish, List.take_append_of_le_length (by rwa [List.length_reverse])]

theorem take_finish_foldl_take (h : s.bytesUntil count bytes ≤ n) :
    ((bytes.take n).foldl step s).finish.take count = (bytes.foldl step s).finish.take count := by
  induction bytes generalizing s n with
  | nil => rw [List.take_nil]
  | cons b rest ih =>
    by_cases hs : count ≤ s.records.length
    · rw [take_finish_foldl hs, take_finish_foldl hs]
    · rw [bytesUntil, if_neg hs] at h
      obtain ⟨n, rfl⟩ : ∃ k, n = k + 1 := ⟨n - 1, by omega⟩
      rw [List.take_succ_cons, List.foldl_cons, List.foldl_cons]
      exact ih (by omega)

end Splitter

theorem dropMark_cases (bytes : List UInt8) :
    (∃ rest, bytes = 0xEF :: 0xBB :: 0xBF :: rest ∧ dropMark bytes = rest) ∨
    (dropMark bytes = bytes ∧ ∀ rest, bytes ≠ 0xEF :: 0xBB :: 0xBF :: rest) := by
  unfold dropMark
  split
  · exact .inl ⟨_, rfl, rfl⟩
  next hmark => exact .inr ⟨rfl, hmark⟩

/-- A text that is cut behind its byte order mark keeps it. -/
theorem dropMark_take (h : bytes.length - (dropMark bytes).length ≤ n) :
    dropMark (bytes.take n) = (dropMark bytes).take (n - (bytes.length - (dropMark bytes).length)) := by
  rcases dropMark_cases bytes with ⟨rest, rfl, hrest⟩ | ⟨hsame, hmark⟩
  · have hlen : (0xEF :: 0xBB :: 0xBF :: rest).length - rest.length = 3 := by
      simp only [List.length_cons]
      omega
    rw [hrest, hlen] at h ⊢
    obtain ⟨n, rfl⟩ := Nat.exists_eq_add_of_le' h
    rfl
  · rw [hsame, Nat.sub_self, Nat.sub_zero]
    rcases dropMark_cases (bytes.take n) with ⟨rest, htake, _⟩ | ⟨hsame, _⟩
    · refine absurd ?_ (hmark (rest ++ bytes.drop n))
      rw [← List.cons_append, ← List.cons_append, ← List.cons_append, ← htake, List.take_append_drop]
    · exact hsame

/-- The first records of a text are those of every part of it that holds them. -/
theorem take_splitRecords (h : recordBytes count bytes ≤ n) :
    (splitRecords (bytes.take n)).take count = (splitRecords bytes).take count := by
  unfold recordBytes at h
  rw [splitRecords, dropMark_take (by omega)]
  exact Splitter.take_finish_foldl_take (by omega)

/-- A table has its names and its first row from the first two records. -/
theorem Summary.ofTable_congr {records records' : List (List (List UInt8))}
    (h : records.take 2 = records'.take 2) :
    ofTable (Named.ofRecords records) = ofTable (Named.ofRecords records') := by
  have hfirst (records : List (List (List UInt8))) :
      ofTable (Named.ofRecords records) = ofTable (Named.ofRecords (records.take 2)) := by
    rcases records with _ | ⟨_, _ | _⟩ <;> rfl
  rw [hfirst records, hfirst records', h]

/-- No byte behind the first row has a part in a summary. -/
theorem readSummary_take (h : summaryBytes bytes ≤ n) : readSummary (bytes.take n) = readSummary bytes :=
  Summary.ofTable_congr (take_splitRecords h)

end BatchMeans.Table
