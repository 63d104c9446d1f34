import BatchMeans.Series.Mean

/- The settings of an analysis. -/
namespace BatchMeans

/-- A named autocorrelation limit. -/
inductive Preset where
  | quick
  | normal
  | strict
deriving DecidableEq

namespace Preset

def ofName? : String → Option Preset
  | "quick" => some quick
  | "normal" => some normal
  | "strict" => some strict
  | _ => none

/-- The largest coefficient that still counts as uncorrelated. -/
def limit {α : Type} [Arith α] : Preset → α
  | quick => Arith.ratio 8 10
  | normal => Arith.ratio 2 10
  | strict => Arith.ratio 1 10

end Preset

/-- What an analysis is told: the confidence level, the autocorrelation limit, how means are taken, and
    the interval width that is aimed at, if any. -/
structure Settings (α : Type) where
  level : α
  limit : α
  method : MeanMethod
  width : Option α

namespace Settings
variable {α : Type} [Arith α]

def ofPreset (preset : Preset) : Settings α := ⟨Arith.ratio 95 100, preset.limit, .arithmetic, none⟩

/-- The settings when nothing is said. -/
def standard : Settings α := ofPreset .quick

def checkWidth (width : α) : Checked α Unit :=
  require (Arith.IsPositive width) (.settingWidth width)

/-- A level lies strictly between zero and one, a limit between zero and one included, and a width is positive
    and finite. -/
def check (s : Settings α) : Checked α Unit := do
  require (0 < s.level ∧ s.level < 1) (.settingLevel s.level)
  require (0 < s.limit ∧ s.limit ≤ 1) (.settingLimit s.limit)
  match s.width with
  | some width => checkWidth width
  | none => return ()

end Settings
end BatchMeans
