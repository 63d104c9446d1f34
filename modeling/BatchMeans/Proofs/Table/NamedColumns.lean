import Mathlib.Data.List.Nodup
import BatchMeans.Proofs.Table.Record

/- What a row holds under a name.

   Where the names of the columns are distinct, a name leads to at most one field, so
   the number in a named column is looked up by name alone (`number?_eq_some_iff`).
   Permuting the columns together with the header, or adding columns of other names,
   leaves every such lookup as it is (`Rearranged.number?_eq`). -/
namespace BatchMeans.Table
variable {bytes : List UInt8} {names row names' row' : List String} {rows : List (List String)}
  {wanted : List String} {name : String} {position : Nat} {x : Float}

/-! ## The field under a name -/

/-- A row has a number under a name. -/
def HasNumber (names row : List String) (name : String) (x : Float) : Prop :=
  ∃ field, (name, field) ∈ names.zip row ∧ Decimal.readNumber? field = some x

theorem HasNumber.mem (h : HasNumber names row name x) : name ∈ names := by
  obtain ⟨field, hfield, _⟩ := h
  exact (List.of_mem_zip hfield).1

theorem mem_fieldsUnder_iff {field : String} :
    field ∈ fieldsUnder name names row ↔ (name, field) ∈ names.zip row := by
  simp [fieldsUnder]

/-- The names over the fields of a row are names of the header, in its order. -/
theorem map_fst_zip_sublist :
    ∀ names row : List String, ((names.zip row).map Prod.fst).Sublist names
  | [], _ => List.nil_sublist _
  | _ :: _, [] => List.nil_sublist _
  | name :: names, _ :: row => (map_fst_zip_sublist names row).cons_cons name

theorem length_fieldsUnder_le_one (h : names.Nodup) : (fieldsUnder name names row).length ≤ 1 := by
  have hnodup := h.sublist (map_fst_zip_sublist names row)
  have hcount := List.nodup_iff_count_le_one.mp hnodup name
  rw [List.count_eq_countP, List.countP_map, List.countP_eq_length_filter] at hcount
  rw [fieldsUnder, List.length_map]
  exact hcount

/-- The number in a named column, if the names are distinct. -/
theorem number?_eq_some_iff (h : names.Nodup) :
    number? (some names) position name row = some x ↔ HasNumber names row name x := by
  have hlen : (fieldsUnder name names row).length ≤ 1 := length_fieldsUnder_le_one h
  have hmem : ∀ field, field ∈ fieldsUnder name names row ↔ (name, field) ∈ names.zip row :=
    fun field => mem_fieldsUnder_iff
  unfold number? HasNumber
  simp only [← hmem]
  match fieldsUnder name names row, hlen with
  | [], _ => simp
  | [field], _ => simp

/-! ## Columns in another order, and other columns -/

/-- A row after its columns are permuted together with the header, and columns of other names than the
    wanted ones are added. -/
def Rearranged (wanted names row names' row' : List String) : Prop :=
  ∃ added : List (String × String), (∀ column ∈ added, column.1 ∉ wanted) ∧
    (names'.zip row').Perm (names.zip row ++ added)

theorem Rearranged.hasNumber_iff (h : Rearranged wanted names row names' row') (hname : name ∈ wanted) :
    HasNumber names' row' name x ↔ HasNumber names row name x := by
  obtain ⟨added, hother, hperm⟩ := h
  have hmem : ∀ field, (name, field) ∈ names'.zip row' ↔ (name, field) ∈ names.zip row := by
    intro field
    rw [hperm.mem_iff, List.mem_append]
    refine or_iff_left ?_
    intro hadded
    exact hother _ hadded hname
  simp only [HasNumber, hmem]

theorem Rearranged.number?_eq (h : Rearranged wanted names row names' row') (hname : name ∈ wanted)
    (hdistinct : names.Nodup) (hdistinct' : names'.Nodup) :
    number? (some names') position name row' = number? (some names) position name row := by
  apply Option.ext
  intro x
  rw [number?_eq_some_iff hdistinct, number?_eq_some_iff hdistinct', h.hasNumber_iff hname]

/-! ## The table of a text -/

/-- A text holds a table: a header of distinct names and rows as long as the header, all of them UTF-8.
    A text without records is the table without columns and rows. -/
structure HoldsTable (bytes : List UInt8) (names : List String) (rows : List (List String)) : Prop where
  records : (splitRecords bytes).map decodeRecord? = (names :: rows).map some ∨
    splitRecords bytes = [] ∧ names = [] ∧ rows = []
  distinct : names.Nodup
  width : ∀ row ∈ rows, row.length = names.length

theorem length_of_decodeRecord? {fields : List (List UInt8)} (h : decodeRecord? fields = some row) :
    row.length = fields.length := by
  unfold decodeRecord? at h
  induction fields generalizing row with
  | nil =>
    cases h
    rfl
  | cons field fields ih =>
    rw [List.mapM_cons] at h
    obtain ⟨text, _, h⟩ := Option.bind_eq_some_iff.mp h
    obtain ⟨texts, htexts, h⟩ := Option.bind_eq_some_iff.mp h
    cases h
    simp [ih htexts]

/-- Rows of one width are all decoded. -/
theorem map_decodeRow_eq {width : Nat} {fields : List (List (List UInt8))}
    (hwidth : ∀ row ∈ rows, row.length = width) (h : fields.map decodeRecord? = rows.map some) :
    fields.map (decodeRow width) = rows.map .ok := by
  induction rows generalizing fields with
  | nil =>
    rw [List.map_eq_nil_iff.mp h]
    rfl
  | cons row rows ih =>
    obtain ⟨hrow, hrows⟩ := List.forall_mem_cons.mp hwidth
    obtain ⟨first, rest, rfl, hfirst, hrest⟩ := List.map_eq_cons_iff.mp h
    have hlen : first.length = width := by
      rw [← length_of_decodeRecord? hfirst, hrow]
    have hdecode : decodeRow width first = .ok row := by
      simp [decodeRow, hlen, hfirst]
    rw [List.map_cons, List.map_cons, hdecode, ih hrows hrest]

/-- All rows of a table are read, under the names of its header. -/
theorem HoldsTable.named_eq (h : HoldsTable bytes names rows) :
    Named.ofRecords (splitRecords bytes) = ⟨some names, rows.map .ok⟩ := by
  rcases h.records with hrecords | ⟨hrecords, hnames, hrows⟩
  · obtain ⟨header, fields, hsplit, hheader, hfields⟩ := List.map_eq_cons_iff.mp hrecords
    rw [hsplit, Named.ofRecords, hheader, ← length_of_decodeRecord? hheader, map_decodeRow_eq h.width hfields]
  · rw [hrecords, hnames, hrows]
    rfl

end BatchMeans.Table
