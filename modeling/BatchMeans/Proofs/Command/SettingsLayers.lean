import BatchMeans.Command.Run
import BatchMeans.Proofs.Analysis.Refusal
import BatchMeans.Proofs.Analysis.SettingsFile

/- Where the settings of a run come from.

   A configuration file says some of the settings and leaves out others: it is a
   layer (`Layer`). The options lie on top of it, and the standard below.
   `settings_eq_ok_iff` says that a run has settings exactly when the file is valid
   on its own and each option is in its range, and that each setting then is what
   the topmost source says that says it. The three places that check settings ask
   for the same ranges, so the last check can only fail for an option that no
   earlier one has looked at: the level or the width (`settings_eq_during_iff`). -/
namespace BatchMeans
open Toml

namespace Command

variable {inputs : Inputs} {path : String} {s : Settings Float}

/-- A file says a layer: it holds UTF-8 text, the text is a document, and the settings in it are of their
    kinds. -/
def Says (inputs : Inputs) (path : String) (l : Layer) : Prop :=
  ∃ bytes text, inputs.file path = .content bytes ∧ String.fromUTF8? ⟨bytes.toArray⟩ = some text ∧
    Layer.OfText text l

theorem readSettings_eq_ok_iff : readSettings inputs path = .ok s ↔
    ∃ l, Says inputs path l ∧ l.settings.Valid ∧ s = l.settings := by
  unfold readSettings Says
  cases hfile : inputs.file path with
  | missing => simp
  | unreadable => simp
  | content bytes =>
    cases htext : String.fromUTF8? ⟨bytes.toArray⟩ with
    | none => simp [htext]
    | some text => simp [htext, Settings.ofText_eq_ok_iff]

/-- A file that gives no settings is never noted as an invalid configuration. -/
theorem readSettings_ne_during {cause : Failure} :
    readSettings inputs path ≠ .error (.during .settings cause) := by
  unfold readSettings
  split
  · split
    · unfold Settings.ofText
      split
      · simp
      next base _ =>
        cases hcheck : base.check with
        | ok u => simp [Checked.loaded, Except.mapError]
        | error e => simp [Checked.loaded, Except.mapError]
    · simp
  · simp

/-! ## The options on top -/

variable {o : Overrides} {l : Layer}

/-- The limit, if an option gives one, is in its range. -/
def Overrides.LimitInRange (o : Overrides) : Prop := ∀ x, o.limit = some x → 0 < x ∧ x ≤ 1

/-- Each option that is given is in its range. -/
structure Overrides.InRange (o : Overrides) : Prop where
  limit : o.LimitInRange
  level : ∀ x, o.level = some x → 0 < x ∧ x < 1
  width : ∀ x, o.width = some x → 0 < x ∧ x.isFinite = true

/-- The limit that a preset names. -/
def presetLimit : Preset → Float
  | .quick => 0.8
  | .normal => 0.2
  | .strict => 0.1

theorem preset_limit_eq (preset : Preset) : preset.limit = presetLimit preset := by
  cases preset <;> rfl

/-- Each setting as the topmost source says it that says it: the option, for the limit then the preset, then the
    layer below, and last the standard. -/
def Overrides.over (o : Overrides) (l : Layer) : Settings Float where
  level := (o.level <|> l.level).getD 0.95
  limit := (o.limit <|> o.preset.map presetLimit <|> l.limit).getD 0.8
  method := (o.method <|> l.method).getD .arithmetic
  width := o.width <|> l.width

theorem exists_of_not_inRange {p : Float → Prop} {given : Option Float}
    (h : ¬ ∀ x, given = some x → p x) : ∃ x, given = some x ∧ ¬ p x := by
  simpa only [not_forall, Classical.not_imp, exists_prop] using h

theorem presetLimit_valid (preset : Preset) : 0 < presetLimit preset ∧ presetLimit preset ≤ 1 := by
  cases preset <;> decide +kernel

theorem settings_silent_valid : Layer.silent.settings.Valid :=
  ⟨by decide +kernel, presetLimit_valid .quick, fun _ h => (nomatch h)⟩

theorem over_level : (o.over l).level = o.level.getD l.settings.level := by
  cases h : o.level <;> simp [Overrides.over, Layer.settings, h]

theorem over_limit :
    (o.over l).limit = (o.limit <|> o.preset.map presetLimit).getD l.settings.limit := by
  cases h : o.limit <;> cases h' : o.preset <;> simp [Overrides.over, Layer.settings, h, h']

theorem over_width : (o.over l).width = (o.width <|> l.settings.width) := rfl

theorem over_level_valid (hl : l.settings.Valid) (h : ∀ x, o.level = some x → 0 < x ∧ x < 1) :
    0 < (o.over l).level ∧ (o.over l).level < 1 := by
  rw [over_level]
  cases hlevel : o.level with
  | some x => exact h x hlevel
  | none => exact hl.level

theorem over_limit_valid (hl : l.settings.Valid) (h : o.LimitInRange) :
    0 < (o.over l).limit ∧ (o.over l).limit ≤ 1 := by
  rw [over_limit]
  cases hlimit : o.limit with
  | some x => exact h x hlimit
  | none =>
    cases o.preset with
    | some preset => exact presetLimit_valid preset
    | none => exact hl.limit

/-- Options over a layer are valid exactly when they are in their ranges: what they leave out is valid below. -/
theorem over_valid_iff (hl : l.settings.Valid) : (o.over l).Valid ↔ o.InRange := by
  constructor
  · intro h
    refine ⟨fun x hx => ?_, fun x hx => ?_, fun x hx => ?_⟩
    · simpa [over_limit, hx] using h.limit
    · simpa [over_level, hx] using h.level
    · exact h.width x (by simp [over_width, hx])
  · intro h
    refine ⟨over_level_valid hl h.level, over_limit_valid hl h.limit, fun x hx => ?_⟩
    cases hwidth : o.width with
    | some y => exact h.width x (by simpa [over_width, hwidth] using hx)
    | none => exact hl.width x (by simpa [over_width, hwidth] using hx)

/-- With the limit in its range, the options give the settings of the layers once these pass their check. -/
theorem apply_eq_check (l : Layer) (hlimit : o.LimitInRange) :
    o.apply l.settings = do
      Loaded.within .settings (Checked.loaded (o.over l).check)
      return o.over l := by
  have hchoose : o.chooseLimit l.settings.limit = .ok (o.over l).limit := by
    unfold Overrides.chooseLimit Overrides.over
    cases hl : o.limit with
    | some x => simp [hlimit x hl]
    | none =>
      cases o.preset with
      | some preset => exact congrArg Except.ok (preset_limit_eq preset)
      | none => rfl
  have hover : (⟨o.level.getD l.settings.level, (o.over l).limit, o.method.getD l.settings.method,
      o.width <|> l.settings.width⟩ : Settings Float) = o.over l := by
    rw [← over_level]
    cases h : o.method <;> simp [Overrides.over, Layer.settings, h]
  simp only [Overrides.apply, hchoose, ok_bind]
  rw [hover]

/-- A limit out of its range is refused on its own, before any other option is looked at. -/
theorem apply_of_limit {x : Float} (base : Settings Float) (hx : o.limit = some x) (hr : ¬ (0 < x ∧ x ≤ 1)) :
    o.apply base = .error (.limitOutOfRange x) := by
  simp [Overrides.apply, Overrides.chooseLimit, hx, if_neg hr]

theorem apply_eq_ok_iff (hl : l.settings.Valid) :
    o.apply l.settings = .ok s ↔ o.InRange ∧ s = o.over l := by
  by_cases hlimit : o.LimitInRange
  · rw [apply_eq_check l hlimit, ← over_valid_iff hl, ← Settings.check_eq_ok_iff]
    simp only [bind_eq_ok_iff, Loaded.within, Checked.loaded, mapError_eq_ok_iff, pure_eq_ok,
      Except.ok.injEq]
    constructor
    · rintro ⟨_, hcheck, rfl⟩
      exact ⟨hcheck, rfl⟩
    · rintro ⟨hcheck, rfl⟩
      exact ⟨(), hcheck, rfl⟩
  · have hrange : ¬ o.InRange := fun h => hlimit h.limit
    obtain ⟨x, hx, hr⟩ := exists_of_not_inRange hlimit
    rw [apply_of_limit _ hx hr]
    simp [hrange]

/-! ## What the last check can find -/

/-- What is wrong with a level or a width that an option gives. The level is looked at first. -/
inductive OptionFault (o : Overrides) : Fault Float → Prop where
  | level {x : Float} : o.level = some x → ¬ (0 < x ∧ x < 1) →
    OptionFault o (.invalid (.settingLevel x))
  | width {x : Float} : (∀ y, o.level = some y → 0 < y ∧ y < 1) → o.width = some x →
    ¬ (0 < x ∧ x.isFinite = true) → OptionFault o (.invalid (.settingWidth x))

theorem check_of_level (h : ¬ (0 < s.level ∧ s.level < 1)) :
    s.check = .error (.invalid (.settingLevel s.level)) := by
  rw [Settings.check, require_of_not h, error_bind]

theorem check_of_width {x : Float} (hlevel : 0 < s.level ∧ s.level < 1) (hlimit : 0 < s.limit ∧ s.limit ≤ 1)
    (hx : s.width = some x) (h : ¬ Arith.IsPositive x) :
    s.check = .error (.invalid (.settingWidth x)) := by
  rw [Settings.check, require_of hlevel, ok_bind, require_of hlimit, ok_bind, hx]
  exact require_of_not h

theorem OptionFault.check_over {e : Fault Float} (h : OptionFault o e) (hl : l.settings.Valid)
    (hlimit : o.LimitInRange) : (o.over l).check = .error e := by
  cases h with
  | @level x hx hr =>
    have hover : (o.over l).level = x := by rw [over_level, hx]; rfl
    rw [check_of_level (by rwa [hover]), hover]
  | width hlevel hx hr =>
    have hover := over_width.trans (congrArg (· <|> l.settings.width) hx)
    exact check_of_width (over_level_valid hl hlevel) (over_limit_valid hl hlimit) hover hr

theorem exists_optionFault (hlimit : o.LimitInRange) (h : ¬ o.InRange) :
    ∃ e, OptionFault o e := by
  by_cases hlevel : ∀ y, o.level = some y → 0 < y ∧ y < 1
  · obtain ⟨x, hx, hr⟩ := exists_of_not_inRange fun hwidth => h ⟨hlimit, hlevel, hwidth⟩
    exact ⟨_, .width hlevel hx hr⟩
  · obtain ⟨x, hx, hr⟩ := exists_of_not_inRange hlevel
    exact ⟨_, .level hx hr⟩

/-- With the limit in its range, the check of the settings fails for an option or not at all. -/
theorem check_over_eq_error_iff {e : Fault Float} (hl : l.settings.Valid)
    (hlimit : o.LimitInRange) :
    (o.over l).check = .error e ↔ OptionFault o e := by
  constructor
  · intro h
    have hrange : ¬ o.InRange := by
      rw [← over_valid_iff hl, ← Settings.check_eq_ok_iff, h]
      simp
    obtain ⟨e', he'⟩ := exists_optionFault hlimit hrange
    obtain rfl := Except.error.inj (h.symm.trans (he'.check_over hl hlimit))
    exact he'
  · exact fun h => h.check_over hl hlimit

/-- Options are noted as an invalid configuration for their level or their width, after the limit. -/
theorem apply_eq_during_iff {cause : Failure} (hl : l.settings.Valid) :
    o.apply l.settings = .error (.during .settings cause) ↔
      o.LimitInRange ∧ ∃ e, OptionFault o e ∧ cause = .fault e := by
  by_cases hlimit : o.LimitInRange
  · simp only [apply_eq_check l hlimit, ← check_over_eq_error_iff hl hlimit]
    cases (o.over l).check with
    | ok u => simp [Checked.loaded, Loaded.within, Except.mapError]
    | error e =>
      simp only [Checked.loaded, Loaded.within, Except.mapError, error_bind, Except.error.injEq,
        Failure.during.injEq, true_and, exists_eq_left']
      exact ⟨fun h => ⟨hlimit, h.symm⟩, fun h => h.2.symm⟩
  · obtain ⟨x, hx, hr⟩ := exists_of_not_inRange hlimit
    rw [apply_of_limit _ hx hr]
    simp [hlimit]

/-! ## The settings of a run -/

/-- The layer below the options: what the file says, which has to be valid on its own, or nothing without a
    file. -/
inductive Below (o : AnalyzeOptions) (inputs : Inputs) : Layer → Prop where
  | nothing : o.config = none → Below o inputs .silent
  | file {path : String} {l : Layer} : o.config = some path → Says inputs path l → l.settings.Valid →
    Below o inputs l

theorem Below.valid {o : AnalyzeOptions} (h : Below o inputs l) : l.settings.Valid := by
  cases h with
  | nothing _ => exact settings_silent_valid
  | file _ _ hv => exact hv

/-- The settings below the options. -/
def AnalyzeOptions.base (o : AnalyzeOptions) (inputs : Inputs) : Loaded (Settings Float) :=
  match o.config with
  | some path => readSettings inputs path
  | none => .ok .standard

theorem settings_eq_base_bind (o : AnalyzeOptions) (inputs : Inputs) :
    o.settings inputs = o.base inputs >>= o.overrides.apply := by
  unfold AnalyzeOptions.settings AnalyzeOptions.base
  cases o.config <;> rfl

theorem base_eq_ok_iff {o : AnalyzeOptions} {base : Settings Float} :
    o.base inputs = .ok base ↔ ∃ l, Below o inputs l ∧ base = l.settings := by
  unfold AnalyzeOptions.base
  cases hconfig : o.config with
  | none =>
    constructor
    · intro h
      exact ⟨.silent, .nothing hconfig, (Except.ok.inj h).symm⟩
    · intro ⟨l, hl, hbase⟩
      cases hl with
      | nothing _ => exact congrArg Except.ok hbase.symm
      | file h => simp [hconfig] at h
  | some path =>
    refine readSettings_eq_ok_iff.trans ⟨?_, ?_⟩
    · intro ⟨l, hsays, hv, hbase⟩
      exact ⟨l, .file hconfig hsays hv, hbase⟩
    · intro ⟨l, hl, hbase⟩
      cases hl with
      | nothing h => simp [hconfig] at h
      | file h hsays hv =>
        obtain rfl := Option.some.inj (hconfig.symm.trans h)
        exact ⟨l, hsays, hv, hbase⟩

theorem base_ne_during {o : AnalyzeOptions} {cause : Failure} :
    o.base inputs ≠ .error (.during .settings cause) := by
  unfold AnalyzeOptions.base
  cases o.config with
  | none => simp
  | some path => exact readSettings_ne_during

theorem settings_eq_ok_iff {o : AnalyzeOptions} : o.settings inputs = .ok s ↔
    o.overrides.InRange ∧ ∃ l, Below o inputs l ∧ s = o.overrides.over l := by
  simp only [settings_eq_base_bind, bind_eq_ok_iff, base_eq_ok_iff]
  constructor
  · intro ⟨_, ⟨l, hl, hbase⟩, happly⟩
    rw [hbase, apply_eq_ok_iff hl.valid] at happly
    exact ⟨happly.1, l, hl, happly.2⟩
  · intro ⟨hrange, l, hl, hs⟩
    exact ⟨_, ⟨l, hl, rfl⟩, (apply_eq_ok_iff hl.valid).mpr ⟨hrange, hs⟩⟩

theorem settings_eq_during_iff {o : AnalyzeOptions} {cause : Failure} :
    o.settings inputs = .error (.during .settings cause) ↔ (∃ l, Below o inputs l) ∧
      o.overrides.LimitInRange ∧ ∃ e, OptionFault o.overrides e ∧ cause = .fault e := by
  rw [settings_eq_base_bind]
  cases hbase : o.base inputs with
  | ok base =>
    obtain ⟨l, hl, rfl⟩ := base_eq_ok_iff.mp hbase
    rw [ok_bind, apply_eq_during_iff hl.valid]
    exact ⟨fun h => ⟨⟨l, hl⟩, h⟩, fun h => h.2⟩
  | error e =>
    have hbelow : ¬ ∃ l, Below o inputs l := by
      intro ⟨l, hl⟩
      have hok := base_eq_ok_iff.mpr ⟨l, hl, rfl⟩
      cases hbase.symm.trans hok
    have hne : e ≠ .during .settings cause := fun he => base_ne_during (he ▸ hbase)
    simp [hbelow, hne]

/-- **Settings are layered pointwise and completely.** A run has settings exactly when its file is valid on
    its own and each option is in its range, and each setting is then what its topmost source says, whatever is
    said about the others. An analysis with these settings passes its check and is refused for its readings
    only. An invalid configuration is noted exactly when an option gives a level or a width out of its range,
    after a file and a limit that are in order. -/
theorem settings_layered (o : AnalyzeOptions) (inputs : Inputs) :
    (∀ s, o.settings inputs = .ok s ↔
      o.overrides.InRange ∧ ∃ l, Below o inputs l ∧ s = o.overrides.over l) ∧
    (∀ s, o.settings inputs = .ok s →
      s.check = .ok () ∧ ∀ law xs, Series.OnlyReadings (Series.analyze law xs s)) ∧
    (∀ cause, o.settings inputs = .error (.during .settings cause) ↔ (∃ l, Below o inputs l) ∧
      o.overrides.LimitInRange ∧ ∃ e, OptionFault o.overrides e ∧ cause = .fault e) ∧
    ∀ words cause, (Failure.during .settings cause).message words =
      "Invalid analysis configuration: " ++ cause.message words := by
  refine ⟨fun s => settings_eq_ok_iff, fun s hs => ?_, fun cause => settings_eq_during_iff,
    fun words cause => rfl⟩
  obtain ⟨hrange, l, hl, rfl⟩ := settings_eq_ok_iff.mp hs
  have hv := (over_valid_iff hl.valid).mpr hrange
  exact ⟨Settings.check_eq_ok_iff.mpr hv, fun law xs => Series.analyze_onlyReadings law xs hv⟩

/-! A file that says three settings, below a preset and a width. -/

def nightlyText : String :=
  "# nightly runs\nconfidence_level = 0.99\nmax_autocorrelation = 0.01\nmean_method = 'harmonic'\n"

def nightlyInputs : Inputs where
  file path := if path = "nightly.toml" then .content nightlyText.toUTF8.toList else .missing
  stdin := []

def nightlyOptions (level : Option Float) : AnalyzeOptions where
  input := "-"
  field := 0
  skip := none
  overrides := ⟨some .normal, none, level, none, some 0.5⟩
  config := some "nightly.toml"
  format := .text

def nightlyLayer : Layer := ⟨some 0.99, some 0.01, some .harmonic, none⟩

theorem says_nightly : Says nightlyInputs "nightly.toml" nightlyLayer := by
  obtain ⟨es, hes⟩ : ∃ es, readDocument? nightlyText = some es := Option.isSome_iff_exists.mp (by decide +kernel)
  have hlayer : (readDocument? nightlyText).bind Layer.ofEntries? = some nightlyLayer := by decide +kernel
  rw [hes] at hlayer
  have hutf8 : String.fromUTF8? ⟨nightlyText.toUTF8.toList.toArray⟩ = some nightlyText := by decide +kernel
  exact ⟨_, nightlyText, rfl, hutf8, es, hes, Layer.ofEntries?_eq_some_iff.mp hlayer⟩

theorem settings_layered_nightly :
    (nightlyOptions none).settings nightlyInputs = .ok ⟨0.99, 0.2, .harmonic, some 0.5⟩ ∧
    (nightlyOptions (some 1.5)).settings nightlyInputs =
      .error (.during .settings (.fault (.invalid (.settingLevel 1.5)))) := by
  have hbelow (level : Option Float) : Below (nightlyOptions level) nightlyInputs nightlyLayer :=
    .file rfl says_nightly ⟨by decide +kernel, by decide +kernel, fun _ h => (nomatch h)⟩
  have hlimit (level : Option Float) : (nightlyOptions level).overrides.LimitInRange := fun _ h => (nomatch h)
  constructor
  · have hrange : (nightlyOptions none).overrides.InRange := by
      refine ⟨hlimit none, fun _ h => (nomatch h), fun x h => ?_⟩
      obtain rfl := Option.some.inj h
      decide +kernel
    exact ((settings_layered _ _).1 _).mpr ⟨hrange, nightlyLayer, hbelow none, rfl⟩
  · have hfault : OptionFault (nightlyOptions (some 1.5)).overrides (.invalid (.settingLevel 1.5)) :=
      .level rfl (by decide +kernel)
    exact ((settings_layered _ _).2.2.1 _).mpr ⟨⟨_, hbelow _⟩, hlimit _, _, hfault, rfl⟩

end Command
end BatchMeans
