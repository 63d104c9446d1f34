import BatchMeans.Analysis.Settings
import BatchMeans.Series.SampleSize

/- The whole analysis of a series.

   The mean, the block size at which blocks are nearly uncorrelated, the
   interval from those blocks, and how many readings a wanted width needs. -/
namespace BatchMeans

/-- What follows once a block size is found. -/
structure BlockAnalysis (α : Type) where
  blockSize : Nat
  interval : Interval α
  /-- The variance of the block means around the mean of the whole series. -/
  variance : α
  /-- Missing when the block means do not vary. -/
  coefficient : Option α
  /-- Present when a width is aimed at. -/
  required : Option SampleSize

/-- The result of an analysis. There is no part about blocks when the series has one reading, or when no size
    qualifies. A record with a missing value for each of the block size, the interval, the variance and the other
    two could have some of them and lack others; here the first three are there together or not at all, and the other
    two only beside them, by the type alone. -/
structure Analysis (α : Type) where
  sampleSize : Nat
  mean : α
  blocks : Option (BlockAnalysis α)

namespace Analysis
variable {α : Type}

def blockSize (a : Analysis α) : Option Nat := a.blocks.map (·.blockSize)
def interval (a : Analysis α) : Option (Interval α) := a.blocks.map (·.interval)
def variance (a : Analysis α) : Option α := a.blocks.map (·.variance)
def coefficient (a : Analysis α) : Option α := a.blocks.bind (·.coefficient)
def required (a : Analysis α) : Option SampleSize := a.blocks.bind (·.required)

/-- Whether the interval is at most as wide as wanted; without an interval it is not. -/
def meetsWidth [Arith α] (a : Analysis α) (width : α) : Bool :=
  match a.blocks with
  | some b => decide (b.interval.width ≤ width)
  | none => false

end Analysis

namespace Series
variable {α : Type} [RootArith α]

/-- The part about blocks of a given size, around the mean of the series. -/
@[specialize] def analyzeBlocks (law : TailLaw α) (xs : List α) (s : Settings α) (centre : α) (q : Nat) :
    Checked α (BlockAnalysis α) := do
  let interval ← confidenceInterval law xs q s.level s.method .sample
  let variance ← blockVariance xs q centre s.method
  let coefficient := (blockAutocorrelation xs q centre s.method).toOption
  let required ← match s.width with
    | some width => requiredSize? law xs width s.method s.level s.limit
    | none => pure none
  return ⟨q, interval, variance, coefficient, required⟩

/-- The analysis of a series. The interval is centred on the mean of the series. -/
@[specialize] def analyze (law : TailLaw α) (xs : List α) (s : Settings α) : Checked α (Analysis α) := do
  s.check
  let centre ← mean xs s.method
  if xs.length < 2 then return ⟨xs.length, centre, none⟩
  match ← blockSize? xs s.method s.limit with
  | none => return ⟨xs.length, centre, none⟩
  | some q => return ⟨xs.length, centre, some (← analyzeBlocks law xs s centre q)⟩

end Series
end BatchMeans
