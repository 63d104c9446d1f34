import BatchMeans.Analysis.Settings
import BatchMeans.Failure
import BatchMeans.Toml.Document

/- Settings from a configuration text.

   A text may set any of the settings; what it leaves out keeps its standard
   value, and other keys are not looked at. -/
namespace BatchMeans
open Toml

namespace Toml.Item

/-- A number, written as an integer or not. -/
def float? : Item → Option Float
  | .integer n => some (if n < 0 then -(Float.ofNat n.natAbs) else Float.ofNat n.natAbs)
  | .number x => some x
  | _ => none

/-- Whether an item holds nothing. -/
def isEmpty : Item → Bool
  | .array items => items.isEmpty
  | .inline entries => entries.isEmpty
  | .table _ entries => entries.isEmpty
  | .tables elements => elements.isEmpty
  | _ => false

/-- A mean method by its name, or by a table whose key is the name of the method and holds nothing. Of an inline table
    that key has to be the only one. -/
def method? : Item → Option MeanMethod
  | .text s => MeanMethod.ofName? s
  | .inline [(name, item)] => if item.isEmpty then MeanMethod.ofName? name else none
  | .table _ ((name, item) :: _) => if item.isEmpty then MeanMethod.ofName? name else none
  | _ => none

end Toml.Item

/-- What a key stands for, read in a given way; the standard value when the key is missing. -/
def settingOr? {β : Type} (read : Item → Option β) (standard : β) : Option Item → Option β
  | none => some standard
  | some item => read item

/-- The settings in the entries of a document. -/
def Settings.ofEntries? (es : Entries) : Option (Settings Float) := do
  let standard : Settings Float := .standard
  let level ← settingOr? Item.float? standard.level (es.get? "confidence_level")
  let limit ← settingOr? Item.float? standard.limit (es.get? "max_autocorrelation")
  let method ← settingOr? Item.method? standard.method (es.get? "mean_method")
  let width ← settingOr? (fun item => item.float?.map some) standard.width (es.get? "target_ci_width")
  return ⟨level, limit, method, width⟩

/-- The settings in a configuration text; they have to be valid on their own. -/
def Settings.ofText (text : String) : Loaded (Settings Float) :=
  match (readDocument? text).bind Settings.ofEntries? with
  | none => .error (.during .parseToml (.data .badToml))
  | some s => do
    Checked.loaded s.check
    return s

end BatchMeans
