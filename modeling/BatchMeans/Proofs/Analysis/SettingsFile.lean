import BatchMeans.Analysis.SettingsFile
import BatchMeans.Proofs.Analysis.Coherence

/- What a configuration text says.

   A document is a list of keys with items. It says a setting by the first item
   under the key of that setting, which has to be a number or to name a mean
   method (`Said`); a key that does not occur says nothing. What a document says
   about all settings is a `Layer`, and `ofEntries?_eq_some_iff` says that a layer
   is read exactly where the document says it. The settings of a text are its
   layer over the standard, and have to be valid on their own
   (`Settings.ofText_eq_ok_iff`). -/
namespace BatchMeans
open Toml

/-! ## Items -/

namespace Toml.Item

/-- A number, written as an integer or not. -/
inductive IsNumber : Item → Float → Prop where
  | integer (n : Int) : IsNumber (.integer n) (Float.ofInt n)
  | number (x : Float) : IsNumber (.number x) x

theorem float?_integer (n : Int) : (Item.integer n).float? = some (Float.ofInt n) := by
  cases n with
  | ofNat n => rfl
  | negSucc n => exact congrArg some (if_pos (Int.negSucc_lt_zero n))

theorem float?_eq_some_iff {item : Item} {x : Float} : item.float? = some x ↔ item.IsNumber x := by
  constructor
  · intro h
    cases item with
    | integer n =>
      obtain rfl := Option.some.inj ((float?_integer n).symm.trans h)
      exact .integer n
    | number y =>
      obtain rfl := Option.some.inj h
      exact .number y
    | _ => cases h
  · intro h
    cases h with
    | integer n => exact float?_integer n
    | number _ => rfl

/-- A list or a table that holds nothing. -/
inductive HoldsNothing : Item → Prop where
  | array : HoldsNothing (.array [])
  | inline : HoldsNothing (.inline [])
  | table (kind : TableKind) : HoldsNothing (.table kind [])
  | tables : HoldsNothing (.tables [])

theorem isEmpty_iff {item : Item} : item.isEmpty = true ↔ item.HoldsNothing := by
  constructor
  · intro h
    cases item with
    | array items => obtain rfl := List.isEmpty_iff.mp h; exact .array
    | inline entries => obtain rfl := List.isEmpty_iff.mp h; exact .inline
    | table kind entries => obtain rfl := List.isEmpty_iff.mp h; exact .table kind
    | tables elements => obtain rfl := List.isEmpty_iff.mp h; exact .tables
    | _ => cases h
  · intro h
    cases h <;> rfl

/-- The names of the mean methods. -/
inductive Names : String → MeanMethod → Prop where
  | arithmetic : Names "arithmetic" .arithmetic
  | harmonic : Names "harmonic" .harmonic

theorem ofName?_eq_some_iff {name : String} {method : MeanMethod} :
    MeanMethod.ofName? name = some method ↔ Names name method := by
  constructor
  · intro h
    unfold MeanMethod.ofName? at h
    split at h
    · obtain rfl := Option.some.inj h; exact .arithmetic
    · obtain rfl := Option.some.inj h; exact .harmonic
    · cases h
  · intro h
    cases h <;> rfl

/-- A mean method: its name, or a table with its name as the key of something that holds nothing. Beside that key
    an inline table has no other, and in a table it is the first. -/
inductive IsMethod : Item → MeanMethod → Prop where
  | text {name : String} {method : MeanMethod} : Names name method → IsMethod (.text name) method
  | inline {name : String} {item : Item} {method : MeanMethod} : Names name method → item.HoldsNothing →
    IsMethod (.inline [(name, item)]) method
  | table {kind : TableKind} {name : String} {item : Item} {rest : Entries} {method : MeanMethod} :
    Names name method → item.HoldsNothing → IsMethod (.table kind ((name, item) :: rest)) method

theorem method?_eq_some_iff {item : Item} {method : MeanMethod} :
    item.method? = some method ↔ item.IsMethod method := by
  constructor
  · intro h
    unfold method? at h
    split at h
    · exact .text (ofName?_eq_some_iff.mp h)
    · split at h
      · exact .inline (ofName?_eq_some_iff.mp h) (isEmpty_iff.mp ‹_›)
      · cases h
    · split at h
      · exact .table (ofName?_eq_some_iff.mp h) (isEmpty_iff.mp ‹_›)
      · cases h
    · cases h
  · intro h
    cases h with
    | text hname => exact ofName?_eq_some_iff.mpr hname
    | inline hname hitem | table hname hitem =>
      exact (if_pos (isEmpty_iff.mpr hitem)).trans (ofName?_eq_some_iff.mpr hname)

end Toml.Item

/-! ## Keys -/

section Keys
variable {es : Entries} {key : String} {item : Item} {β : Type} {reads : Item → β → Prop}

theorem forall_key_ne_iff : (∀ e ∈ es, (key != e.1) = true) ↔ ∀ i, (key, i) ∉ es := by
  simp only [bne_iff_ne, Prod.forall]
  exact ⟨fun h i hi => h key i hi rfl, fun h k i hi hk => h i (hk ▸ hi)⟩

theorem get?_eq_none_iff : es.get? key = none ↔ ∀ i, (key, i) ∉ es := by
  rw [Entries.get?, List.lookup_eq_none_iff, forall_key_ne_iff]

theorem get?_eq_some_iff : es.get? key = some item ↔
    ∃ before after, es = before ++ (key, item) :: after ∧ ∀ i, (key, i) ∉ before := by
  simp only [Entries.get?, List.lookup_eq_some_iff, forall_key_ne_iff]

/-- What the entries of a document say under a key: what the first item under it is read as, if there is one. -/
inductive Said (reads : Item → β → Prop) (es : Entries) (key : String) : Option β → Prop where
  | nothing : (∀ i, (key, i) ∉ es) → Said reads es key none
  | value {before after : Entries} {item : Item} {b : β} : es = before ++ (key, item) :: after →
    (∀ i, (key, i) ∉ before) → reads item b → Said reads es key (some b)

/-- What a key says, if it is there. -/
def said? (read : Item → Option β) : Option Item → Option (Option β)
  | none => some none
  | some item => (read item).map some

theorem said?_eq_some_iff {read : Item → Option β} {v : Option β}
    (hread : ∀ item b, read item = some b ↔ reads item b) :
    said? read (es.get? key) = some v ↔ Said reads es key v := by
  constructor
  · intro h
    cases hget : es.get? key with
    | none =>
      rw [hget] at h
      obtain rfl := Option.some.inj h
      exact .nothing (get?_eq_none_iff.mp hget)
    | some item =>
      rw [hget] at h
      obtain ⟨b, hb, rfl⟩ := Option.map_eq_some_iff.mp h
      obtain ⟨before, after, hes, hbefore⟩ := get?_eq_some_iff.mp hget
      exact .value hes hbefore ((hread item b).mp hb)
  · intro h
    cases h with
    | nothing hnone => rw [get?_eq_none_iff.mpr hnone, said?]
    | value hes hbefore hitem =>
      rw [get?_eq_some_iff.mpr ⟨_, _, hes, hbefore⟩, said?, (hread _ _).mpr hitem, Option.map_some]

end Keys

/-! ## Layers -/

/-- What one source says about the settings. -/
structure Layer where
  level : Option Float
  limit : Option Float
  method : Option MeanMethod
  width : Option Float
deriving DecidableEq

namespace Layer
variable {es : Entries} {l : Layer}

/-- The layer that says nothing. -/
def silent : Layer := ⟨none, none, none, none⟩

/-- The entries of a document say a layer, a setting under each of four keys. -/
structure Of (es : Entries) (l : Layer) : Prop where
  level : Said Item.IsNumber es "confidence_level" l.level
  limit : Said Item.IsNumber es "max_autocorrelation" l.limit
  method : Said Item.IsMethod es "mean_method" l.method
  width : Said Item.IsNumber es "target_ci_width" l.width

/-- The layer that the entries of a document say, if there is one. -/
def ofEntries? (es : Entries) : Option Layer := do
  let level ← said? Item.float? (es.get? "confidence_level")
  let limit ← said? Item.float? (es.get? "max_autocorrelation")
  let method ← said? Item.method? (es.get? "mean_method")
  let width ← said? Item.float? (es.get? "target_ci_width")
  return ⟨level, limit, method, width⟩

theorem ofEntries?_eq_some_iff : ofEntries? es = some l ↔ Of es l := by
  have hnumber : ∀ item x, Item.float? item = some x ↔ item.IsNumber x := fun _ _ => Item.float?_eq_some_iff
  have hmethod : ∀ item m, Item.method? item = some m ↔ item.IsMethod m := fun _ _ => Item.method?_eq_some_iff
  simp only [ofEntries?, Option.bind_eq_bind, Option.pure_def, Option.bind_eq_some_iff, Option.some.injEq,
    said?_eq_some_iff hnumber, said?_eq_some_iff hmethod]
  constructor
  · rintro ⟨_, hlevel, _, hlimit, _, hmethod, _, hwidth, rfl⟩
    exact ⟨hlevel, hlimit, hmethod, hwidth⟩
  · intro h
    exact ⟨_, h.level, _, h.limit, _, h.method, _, h.width, rfl⟩

instance (es : Entries) (l : Layer) : Decidable (Of es l) :=
  decidable_of_iff (ofEntries? es = some l) ofEntries?_eq_some_iff

/-- What a layer says, and the standard where it says nothing. -/
def settings (l : Layer) : Settings Float where
  level := l.level.getD 0.95
  limit := l.limit.getD 0.8
  method := l.method.getD .arithmetic
  width := l.width

end Layer

/-! ## The settings of a text -/

theorem settingOr?_eq {β : Type} (read : Item → Option β) (standard : β) (item : Option Item) :
    settingOr? read standard item = (said? read item).map (·.getD standard) := by
  cases item with
  | none => rfl
  | some item => simp [settingOr?, said?, Function.comp_def]

theorem settingOr?_width (item : Option Item) :
    settingOr? (fun item => item.float?.map some) none item = said? Item.float? item := by
  cases item <;> rfl

/-- The settings when nothing is said. -/
theorem standard_eq : (Settings.standard : Settings Float) = ⟨0.95, 0.8, .arithmetic, none⟩ := rfl

/-- The entries of a document are read as the layer that they say. -/
theorem Settings.ofEntries?_eq (es : Entries) :
    Settings.ofEntries? es = (Layer.ofEntries? es).map Layer.settings := by
  simp only [Settings.ofEntries?, Layer.ofEntries?, standard_eq, settingOr?_width]
  simp only [settingOr?_eq, Option.bind_eq_bind, Option.pure_def, Option.bind_map, Option.map_bind,
    Function.comp_def, Option.map_some]
  rfl

/-- A configuration text says a layer: it is a document whose entries say it. -/
def Layer.OfText (text : String) (l : Layer) : Prop := ∃ es, readDocument? text = some es ∧ Layer.Of es l

/-- A configuration text gives the settings of its layer, if these are valid on their own. -/
theorem Settings.ofText_eq_ok_iff {text : String} {s : Settings Float} :
    Settings.ofText text = .ok s ↔ ∃ l, Layer.OfText text l ∧ l.settings.Valid ∧ s = l.settings := by
  have hlayer (l : Layer) : Layer.OfText text l ↔ (readDocument? text).bind Layer.ofEntries? = some l := by
    simp only [Layer.OfText, Option.bind_eq_some_iff, Layer.ofEntries?_eq_some_iff]
  have hread : (readDocument? text).bind Settings.ofEntries? =
      ((readDocument? text).bind Layer.ofEntries?).map Layer.settings := by
    rw [Option.map_bind]
    exact congrArg _ (funext Settings.ofEntries?_eq)
  simp only [hlayer]
  unfold Settings.ofText
  rw [hread]
  cases (readDocument? text).bind Layer.ofEntries? with
  | none => simp
  | some l =>
    simp only [Option.map_some, bind_eq_ok_iff, Checked.loaded, mapError_eq_ok_iff, pure_eq_ok,
      Except.ok.injEq, Option.some.injEq, exists_eq_left']
    constructor
    · rintro ⟨_, hcheck, rfl⟩
      exact ⟨Settings.check_eq_ok_iff.mp hcheck, rfl⟩
    · rintro ⟨hv, rfl⟩
      exact ⟨(), Settings.check_eq_ok_iff.mpr hv, rfl⟩

end BatchMeans
