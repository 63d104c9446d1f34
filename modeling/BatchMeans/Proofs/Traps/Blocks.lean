import BatchMeans.Proofs.Series.LeastBlockSize
import BatchMeans.Proofs.Traps.Steps

/- Means, variances and coefficients of blocks meet no trap.

   Each statistic is run again with its steps guarded: the reading that a fault
   names is looked up by its position, blocks are cut, the number of blocks is a
   quotient of counts, and one is taken off it. For any arithmetic, any readings
   and any block size or lag the guarded run computes the statistic, because
   the checks that come first leave a block size of at least one, two blocks
   and a lag within the series. -/
namespace BatchMeans
open Series
variable {α : Type} [Arith α]

namespace Guarded

/-- The first reading that is not finite is looked up to be named. -/
def checkFinite (xs : List α) : Guarded (Fault α) Unit :=
  if xs.isEmpty then plain (refuse .emptySeries)
  else match xs.findIdx? fun x => ! Arith.isFinite x with
    | some i => do
      let x ← entry xs i
      plain (refuse (.notFinite i x))
    | none => .ok ()

def mean (xs : List α) (method : MeanMethod) : Guarded (Fault α) α := do
  checkFinite xs
  plain (checkMethod xs method)
  return method.reduce xs

def reduceBlocks (xs : List α) (q : Nat) (method : MeanMethod) : Guarded (Fault α) (List α) := do
  let blocks ← cut q xs
  return blocks.map method.reduce

/-- The variance of at least two values. -/
def spread (values : List α) (centre : α) : Guarded (Fault α) α := do
  let values ← taking (2 ≤ values.length) .tooFewValues values
  let count ← difference values.length 1
  return squareSum values centre / Arith.count count

def blockMeans (xs : List α) (q : Nat) (method : MeanMethod) : Guarded (Fault α) (List α) := do
  checkFinite xs
  plain (checkBlockSize xs.length q)
  plain (checkMethod xs method)
  reduceBlocks xs q method

def blockVariance (xs : List α) (q : Nat) (centre : α) (method : MeanMethod) :
    Guarded (Fault α) α := do
  let means ← blockMeans xs q method
  plain (require (2 ≤ means.length) (.tooFewBlocks .variance means.length xs.length q))
  plain (require (Arith.isFinite centre = true) (.centreNotFinite centre))
  spread means centre

def blockAutocorrelation (xs : List α) (q : Nat) (centre : α) (method : MeanMethod) :
    Guarded (Fault α) α := do
  checkFinite xs
  plain (checkBlockSize xs.length q)
  plain (checkMethod xs method)
  plain (require (Arith.isFinite centre = true) (.sampleMeanNotFinite centre))
  let h ← quotient xs.length q
  plain (require (2 ≤ h) (.tooFewBlocks .autocorrelation h xs.length q))
  let means ← reduceBlocks xs q method
  let pairs ← difference h 1
  let covariance := crossSum (means.zip means.tail) centre / Arith.count pairs
  let pairs ← difference h 1
  let variance := squareSum means centre / Arith.count pairs
  if Arith.IsZero variance then plain (.error (.undefined (.zeroBlockVariance centre q)))
  else return covariance / variance

def lagAutocorrelation (xs : List α) (lag : Nat) (centre : α) : Guarded (Fault α) α := do
  checkFinite xs
  plain (require (lag < xs.length) (.lagTooLong lag xs.length))
  plain (require (Arith.isFinite centre = true) (.meanNotFinite centre))
  let denominator := squareSum xs centre
  if Arith.IsZero denominator then plain (.error (.undefined (.zeroVariance centre)))
  else do
    let later ← dropFirst lag xs
    return crossSum (xs.zip later) centre / denominator

def judgedCoefficient (xs : List α) (q : Nat) (centre : α) (method : MeanMethod) :
    Guarded (Fault α) α :=
  match blockAutocorrelation xs q centre method with
  | .error (.refused (.undefined _)) => .ok 1
  | result => result

def sizeQualifies (xs : List α) (centre : α) (method : MeanMethod) (limit : α) (q : Nat) :
    Guarded (Fault α) Bool := do
  let coefficient ← judgedCoefficient xs q centre method
  return decide (Arith.abs coefficient ≤ limit)

def blockSize? (xs : List α) (method : MeanMethod) (limit : α) : Guarded (Fault α) (Option Nat) := do
  plain (require (2 ≤ xs.length) (.tooFewReadings xs.length))
  plain (require (0 ≤ limit) (.negativeLimit limit))
  let centre ← mean xs method
  (List.range' 1 (xs.length / 2)).findM? (sizeQualifies xs centre method limit)

end Guarded

namespace Computes
variable {xs : List α} {q : Nat}

/-! ## Means -/

/-- An element that is looked for together with its position. -/
theorem find?_zipIdx {β : Type} (p : β → Bool) (ys : List β) (k : Nat) :
    (ys.zipIdx k).find? (fun y => p y.1) =
      (ys.findIdx? p).bind fun i => ys[i]?.map fun y => (y, i + k) := by
  induction ys generalizing k with
  | nil => rfl
  | cons y rest ih =>
    rw [List.zipIdx_cons, List.find?_cons, List.findIdx?_cons]
    cases hy : p y with
    | true => simp
    | false =>
      rw [ih (k + 1)]
      cases rest.findIdx? p with
      | none => rfl
      | some i => simp [Nat.add_assoc, Nat.add_comm 1 k]

theorem checkFinite (xs : List α) : Computes (Guarded.checkFinite xs) (Series.checkFinite xs) := by
  have hfind := find?_zipIdx (fun x => ! Arith.isFinite x) xs 0
  unfold Guarded.checkFinite Series.checkFinite
  generalize hfound : xs.zipIdx.find? _ = found
  obtain rfl : found = _ := hfound.symm.trans hfind
  apply Computes.ite
  · intro _
    exact .plain _
  · intro _
    cases hindex : xs.findIdx? fun x => ! Arith.isFinite x with
    | none => exact .ok ()
    | some i =>
      -- The position of a reading that was found lies within the series.
      obtain ⟨hi, _⟩ := List.findIdx?_eq_some_iff_getElem.mp hindex
      have hx : xs[i]? = some xs[i] := List.getElem?_eq_getElem hi
      rw [Option.bind_some, hx]
      exact .step (Guarded.entry_eq hx) (.plain _)

theorem mean (xs : List α) (method : MeanMethod) :
    Computes (Guarded.mean xs method) (Series.mean xs method) := by
  refine .bind (checkFinite xs) fun _ _ => ?_
  exact .check fun _ _ => .ok _

/-! ## Blocks -/

theorem reduceBlocks_eq (xs : List α) (method : MeanMethod) (hq : 1 ≤ q) :
    Guarded.reduceBlocks xs q method = .ok (Series.reduceBlocks xs q method) := by
  rw [Guarded.reduceBlocks, Guarded.cut_eq xs hq]
  rfl

example (xs : List Float) (method : MeanMethod) :
    Guarded.reduceBlocks xs 0 method = .error (.trapped .emptyBlocks) := rfl

theorem spread_eq {values : List α} (centre : α) (h : 2 ≤ values.length) :
    Guarded.spread values centre = .ok (Series.spread values centre) := by
  have hone : 1 ≤ values.length := by omega
  rw [Guarded.spread, Guarded.taking_eq _ _ h, ok_bind, Guarded.difference_eq hone]
  rfl

example (x centre : Float) :
    Guarded.spread [x] centre = .error (.trapped .tooFewValues) := rfl

theorem blockMeans (xs : List α) (q : Nat) (method : MeanMethod) :
    Computes (Guarded.blockMeans xs q method) (Series.blockMeans xs q method) := by
  refine .bind (checkFinite xs) fun _ _ => ?_
  refine .check fun _ hsize => ?_
  refine .check fun _ _ => ?_
  exact reduceBlocks_eq xs method (one_le_of_checkBlockSize hsize)

theorem blockVariance (xs : List α) (q : Nat) (centre : α) (method : MeanMethod) :
    Computes (Guarded.blockVariance xs q centre method) (Series.blockVariance xs q centre method) := by
  refine .bind (blockMeans xs q method) fun means _ => ?_
  refine .check fun _ hlen => ?_
  refine .check fun _ _ => ?_
  exact spread_eq centre (require_eq_ok_iff.mp hlen)

/-! ## Coefficients -/

theorem blockAutocorrelation (xs : List α) (q : Nat) (centre : α) (method : MeanMethod) :
    Computes (Guarded.blockAutocorrelation xs q centre method)
      (Series.blockAutocorrelation xs q centre method) := by
  refine .bind (checkFinite xs) fun _ _ => ?_
  refine .check fun _ hsize => ?_
  refine .check fun _ _ => ?_
  refine .check fun _ _ => ?_
  have hq := one_le_of_checkBlockSize hsize
  refine .step (Guarded.quotient_eq xs.length hq) ?_
  refine .check fun _ htwo => ?_
  have hone : 1 ≤ xs.length / q := Nat.le_of_succ_le (require_eq_ok_iff.mp htwo)
  refine .step (reduceBlocks_eq xs method hq) ?_
  refine .step (Guarded.difference_eq hone) ?_
  refine .step (Guarded.difference_eq hone) ?_
  exact .ite (fun _ => .plain _) fun _ => .ok _

theorem lagAutocorrelation (xs : List α) (lag : Nat) (centre : α) :
    Computes (Guarded.lagAutocorrelation xs lag centre) (Series.lagAutocorrelation xs lag centre) := by
  refine .bind (checkFinite xs) fun _ _ => ?_
  refine .check fun _ hlag => ?_
  refine .check fun _ _ => ?_
  refine .ite (fun _ => .plain _) fun _ => ?_
  exact .step (Guarded.dropFirst_eq (Nat.le_of_lt (require_eq_ok_iff.mp hlag))) (.ok _)

/-! ## The search -/

theorem judgedCoefficient (xs : List α) (q : Nat) (centre : α) (method : MeanMethod) :
    Computes (Guarded.judgedCoefficient xs q centre method)
      (Series.judgedCoefficient xs q centre method) := by
  unfold Guarded.judgedCoefficient Series.judgedCoefficient
  rw [blockAutocorrelation xs q centre method]
  cases Series.blockAutocorrelation xs q centre method with
  | ok coefficient => exact .ok coefficient
  | error e =>
    cases e with
    | invalid cause => rfl
    | undefined cause => rfl

theorem sizeQualifies (xs : List α) (centre : α) (method : MeanMethod) (limit : α) (q : Nat) :
    Computes (Guarded.sizeQualifies xs centre method limit q)
      (Series.sizeQualifies xs centre method limit q) :=
  .bind (judgedCoefficient xs q centre method) fun _ _ => .ok _

/-- A search whose steps meet no trap meets none. -/
theorem findM? {ε β : Type} {g : β → Guarded ε Bool} {c : β → Except ε Bool}
    (h : ∀ b, Computes (g b) (c b)) (bs : List β) : Computes (bs.findM? g) (bs.findM? c) := by
  induction bs with
  | nil => exact .ok none
  | cons b rest ih =>
    refine .bind (h b) fun found _ => ?_
    cases found with
    | true => exact .ok (some b)
    | false => exact ih

theorem blockSize? (xs : List α) (method : MeanMethod) (limit : α) :
    Computes (Guarded.blockSize? xs method limit) (Series.blockSize? xs method limit) := by
  refine .check fun _ _ => ?_
  refine .check fun _ _ => ?_
  refine .bind (mean xs method) fun centre _ => ?_
  exact findM? (sizeQualifies xs centre method limit) _

end Computes
end BatchMeans
