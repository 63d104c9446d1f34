/- Why a computation is refused.

   A fault is a cause with the numbers it is about, not a text. Faults come in
   two kinds: the input breaks a rule (`Invalid`), or the input is allowed but the
   quotient it asks for has a zero divisor (`Undefined`). -/
namespace BatchMeans

/-- What the block means were needed for. -/
inductive BlockUse where
  | variance
  | autocorrelation
  | interval

/-- A rule that an input breaks. -/
inductive Invalid (α : Type) where
  | emptySeries
  | notFinite (index : Nat) (x : α)
  | zeroReading (index : Nat)
  | zeroBlockSize
  | blockTooLong (size length : Nat)
  | tooFewBlocks (use : BlockUse) (blocks length size : Nat)
  | centreNotFinite (x : α)
  | sampleMeanNotFinite (x : α)
  | meanNotFinite (x : α)
  | lagTooLong (lag length : Nat)
  | levelOutOfRange (x : α)
  | noFreedom
  | tooFewReadings (length : Nat)
  | negativeLimit (x : α)
  | widthNotPositive (x : α)
  | tooManyBlocks (width : α)
  | tooManyReadings (width : α)
  | settingLevel (x : α)
  | settingLimit (x : α)
  | settingWidth (x : α)
  | workNotPositive (x : α)
  | durationNotPositive (x : α)
  | overheadNegative (x : α)
  | rateNotPositive (x : α)
  | naiveRateNotPositive (x : α)
  | lengthsDiffer (xs ys : Nat)
  | tooFewPoints (n : Nat)
  | slopeNotPositive (x : α)
  | noRounds
  | round (index : Nat) (cause : Invalid α)

/-- A quotient without a value. -/
inductive Undefined (α : Type) where
  | zeroBlockVariance (centre : α) (size : Nat)
  | zeroVariance (centre : α)
  | equalAbscissas

inductive Fault (α : Type) where
  | invalid (cause : Invalid α)
  | undefined (cause : Undefined α)

/-- The result of a computation that may be refused. -/
abbrev Checked (α β : Type) := Except (Fault α) β

/-- Refuse the input for a cause. -/
def refuse {α β : Type} (cause : Invalid α) : Checked α β := .error (.invalid cause)

/-- Accept the input when the condition holds; refuse it for the cause otherwise. -/
def require {α : Type} (p : Prop) [Decidable p] (cause : Invalid α) : Checked α Unit :=
  if p then .ok () else refuse cause

theorem require_eq_ok_iff {α : Type} {p : Prop} [Decidable p] {cause : Invalid α} {u : Unit} :
    require p cause = .ok u ↔ p := by
  unfold require refuse; split <;> simp_all

/-! ## Wording -/

/-- The text of a cause, with its numbers written by `num`. -/
def Invalid.message {α : Type} (num : α → String) : Invalid α → String
  | emptySeries => "series must contain at least one sample"
  | notFinite i x => s!"sample {i} is not a finite number ({num x})"
  | zeroReading i => s!"harmonic mean is undefined for zero sample at index {i}"
  | zeroBlockSize => "subsession size must be at least 1"
  | blockTooLong q n => s!"subsession size {q} exceeds series length {n}"
  | tooFewBlocks use h n q =>
    let purpose := match use with
      | .variance => "to estimate variance"
      | .autocorrelation => "for autocorrelation"
      | .interval => "for a confidence interval"
    s!"need at least 2 subsessions {purpose}, got {h} (n={n}, q={q})"
  | centreNotFinite x => s!"variance center must be finite, got {num x}"
  | sampleMeanNotFinite x => s!"sample mean must be finite, got {num x}"
  | meanNotFinite x => s!"mean must be finite, got {num x}"
  | lagTooLong k n => s!"lag {k} must be smaller than series length {n}"
  | levelOutOfRange x => s!"confidence level must lie strictly between 0 and 1, got {num x}"
  | noFreedom => "Student-t distribution needs at least 1 degree of freedom"
  | tooFewReadings n => s!"cannot estimate autocorrelation from {n} sample(s)"
  | negativeLimit x => s!"autocorrelation limit must be non-negative, got {num x}"
  | widthNotPositive x => s!"confidence interval width must be positive, got {num x}"
  | tooManyBlocks w => s!"confidence interval width {num w} needs more subsessions than can be counted"
  | tooManyReadings w => s!"confidence interval width {num w} needs more readings than can be counted"
  | settingLevel x => s!"confidence_level must be in (0, 1), got {num x}"
  | settingLimit x => s!"max_autocorrelation must be in (0, 1], got {num x}"
  | settingWidth x => s!"target_ci_width must be positive, got {num x}"
  | workNotPositive x => s!"work_amount must be positive, got {num x}"
  | durationNotPositive x => s!"round_duration must be positive, got {num x}"
  | overheadNegative x => s!"alpha must be non-negative, got {num x}"
  | rateNotPositive x => s!"v must be positive, got {num x}"
  | naiveRateNotPositive x => s!"naive v must be positive, got {num x}"
  | lengthsDiffer a b => s!"x and y lengths differ ({a} vs {b})"
  | tooFewPoints n => s!"need at least 2 points for a regression, got {n}"
  | slopeNotPositive x =>
    s!"fitted duration per unit of work is not positive ({num x}); rounds do not follow the model"
  | noRounds => "no observations to evaluate"
  | round i cause => s!"observation {i}: Invalid input: {cause.message num}"

def Undefined.message {α : Type} (num : α → String) : Undefined α → String
  | zeroBlockVariance c q => s!"subsession means have zero variance around {num c} (q={q})"
  | zeroVariance c => s!"series has zero variance around {num c}"
  | equalAbscissas => "all x values are identical; slope is undefined"

/-- The text of a fault begins with its kind. -/
def Fault.message {α : Type} (num : α → String) : Fault α → String
  | invalid cause => s!"Invalid input: {cause.message num}"
  | undefined cause => s!"Division undefined: {cause.message num}"

end BatchMeans
