import BatchMeans.Analysis.Analyze
import BatchMeans.Proofs.Traps.Blocks
import BatchMeans.Proofs.Traps.CriticalValue

/- Intervals, sample sizes and whole analyses meet no trap.

   An interval asks for a critical value at one degree of freedom less than there
   are blocks, and takes the variance of as many values as there are blocks; both
   are safe once two blocks are known to fit. A sample size has no check of its own
   for this: it relies on a block size that the search found, which leaves two
   blocks (`two_le_div_of_blockSize?`). The product of the two counts is taken after
   it is known to be countable. -/
namespace BatchMeans
open Series StudentT

namespace Guarded
variable (law : TailLaw Float)

def confidenceInterval (xs : List Float) (q : Nat) (level : Float) (method : MeanMethod)
    (anchor : Anchor) : Guarded (Fault Float) (Interval Float) := do
  plain (checkLevel level)
  checkFinite xs
  plain (checkBlockSize xs.length q)
  plain (checkMethod xs method)
  let h ← quotient xs.length q
  plain (require (2 ≤ h) (.tooFewBlocks .interval h xs.length q))
  let means ← reduceBlocks xs q method
  let centre := MeanMethod.arithmetic.reduce means
  let variance ← spread means centre
  let df ← difference h 1
  let t ← criticalValue law df level
  let point := match anchor with
    | .blockMeans => centre
    | .sample => method.reduce xs
  return ⟨point, halfWidth t variance h, level⟩

def ofBound (width : Float) (q : Nat) (bound : Float) : Guarded (Fault Float) SampleSize :=
  match RootArith.ceilNat bound with
  | none => plain (refuse (.tooManyBlocks width))
  | some count => do
    plain (require (count < SampleSize.countLimit) (.tooManyBlocks width))
    plain (require (count * q < SampleSize.countLimit) (.tooManyReadings width))
    let readings ← product count q
    return ⟨q, count, readings⟩

def requiredSize? (xs : List Float) (width : Float) (method : MeanMethod) (level limit : Float) :
    Guarded (Fault Float) (Option SampleSize) := do
  plain (checkLevel level)
  plain (require (Arith.IsPositive width) (.widthNotPositive width))
  match ← blockSize? xs method limit with
  | none => return none
  | some q => do
    let h ← quotient xs.length q
    let df ← difference h 1
    let t ← criticalValue law df level
    let centre ← mean xs method
    let variance ← blockVariance xs q centre method
    let size ← ofBound width q (blockBound t variance (width / Arith.count 2))
    return some size

def analyzeBlocks (xs : List Float) (s : Settings Float) (centre : Float) (q : Nat) :
    Guarded (Fault Float) (BlockAnalysis Float) := do
  let interval ← confidenceInterval law xs q s.level s.method .sample
  let variance ← blockVariance xs q centre s.method
  let coefficient ← value? (blockAutocorrelation xs q centre s.method)
  let required ← match s.width with
    | some width => requiredSize? law xs width s.method s.level s.limit
    | none => .ok none
  return ⟨q, interval, variance, coefficient, required⟩

def analyze (xs : List Float) (s : Settings Float) : Guarded (Fault Float) (Analysis Float) := do
  plain s.check
  let centre ← mean xs s.method
  if xs.length < 2 then return ⟨xs.length, centre, none⟩
  match ← blockSize? xs s.method s.limit with
  | none => return ⟨xs.length, centre, none⟩
  | some q => do
    let blocks ← analyzeBlocks law xs s centre q
    return ⟨xs.length, centre, some blocks⟩

end Guarded

namespace Computes
variable (law : TailLaw Float) {xs : List Float}

theorem confidenceInterval (xs : List Float) (q : Nat) (level : Float) (method : MeanMethod)
    (anchor : Anchor) : Computes (Guarded.confidenceInterval law xs q level method anchor)
      (Series.confidenceInterval (seriesLaw law) xs q level method anchor) := by
  refine .check fun _ _ => ?_
  refine .bind (checkFinite xs) fun _ _ => ?_
  refine .check fun _ hsize => ?_
  refine .check fun _ _ => ?_
  have hq := one_le_of_checkBlockSize hsize
  refine .step (Guarded.quotient_eq xs.length hq) ?_
  refine .check fun _ hblocks => ?_
  have htwo := require_eq_ok_iff.mp hblocks
  have hmeans : 2 ≤ (Series.reduceBlocks xs q method).length := by rwa [length_reduceBlocks]
  refine .step (reduceBlocks_eq xs method hq) ?_
  refine .step (spread_eq _ hmeans) ?_
  refine .step (Guarded.difference_eq (Nat.le_of_succ_le htwo)) ?_
  exact .bind (criticalValue law _ level) fun _ _ => .ok _

theorem ofBound (width : Float) (q : Nat) (bound : Float) :
    Computes (Guarded.ofBound width q bound) (SampleSize.ofBound width q bound) := by
  unfold Guarded.ofBound SampleSize.ofBound
  cases RootArith.ceilNat bound with
  | none => exact .plain _
  | some count =>
    refine .check fun _ _ => ?_
    refine .check fun _ hproduct => ?_
    exact .step (Guarded.product_eq (require_eq_ok_iff.mp hproduct)) (.ok _)

theorem requiredSize? (xs : List Float) (width : Float) (method : MeanMethod)
    (level limit : Float) : Computes (Guarded.requiredSize? law xs width method level limit)
      (Series.requiredSize? (seriesLaw law) xs width method level limit) := by
  refine .check fun _ _ => ?_
  refine .check fun _ _ => ?_
  refine .bind (blockSize? xs method limit) fun size hsize => ?_
  cases size with
  | none => exact .ok none
  | some q =>
    obtain ⟨hq, htwo⟩ := two_le_div_of_blockSize? hsize
    refine .step (Guarded.quotient_eq xs.length hq) ?_
    refine .step (Guarded.difference_eq (Nat.le_of_succ_le htwo)) ?_
    refine .bind (criticalValue law _ level) fun t _ => ?_
    refine .bind (mean xs method) fun centre _ => ?_
    refine .bind (blockVariance xs q centre method) fun variance _ => ?_
    exact .bind (ofBound width q _) fun _ _ => .ok _

theorem analyzeBlocks (xs : List Float) (s : Settings Float) (centre : Float) (q : Nat) :
    Computes (Guarded.analyzeBlocks law xs s centre q)
      (Series.analyzeBlocks (seriesLaw law) xs s centre q) := by
  refine .bind (confidenceInterval law xs q s.level s.method .sample) fun interval _ => ?_
  refine .bind (blockVariance xs q centre s.method) fun variance _ => ?_
  refine .step (value? (blockAutocorrelation xs q centre s.method)) ?_
  cases s.width with
  | none => exact .ok _
  | some width =>
    exact .bind (requiredSize? law xs width s.method s.level s.limit) fun _ _ => .ok _

theorem analyze (xs : List Float) (s : Settings Float) :
    Computes (Guarded.analyze law xs s) (Series.analyze (seriesLaw law) xs s) := by
  refine .check fun _ _ => ?_
  refine .bind (mean xs s.method) fun centre _ => ?_
  refine .ite (fun _ => .ok _) fun _ => ?_
  refine .bind (blockSize? xs s.method s.limit) fun size _ => ?_
  cases size with
  | none => exact .ok _
  | some q => exact .bind (analyzeBlocks law xs s centre q) fun _ _ => .ok _

end Computes
end BatchMeans
