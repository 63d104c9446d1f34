import BatchMeans.Series.Mean

/- Blocks of consecutive readings.

   A series is cut into blocks of `q` readings; what is left at the end is
   dropped. The means of the blocks are a shorter, less correlated series. -/
namespace BatchMeans.Series

/-! ## Cutting -/

/-- The first `count` blocks of `q` elements each. -/
def takeBlocks {β : Type} (q : Nat) : Nat → List β → List (List β)
  | 0, _ => []
  | count + 1, xs => xs.take q :: takeBlocks q count (xs.drop q)

/-- All complete blocks of `q` elements. -/
def blocks {β : Type} (q : Nat) (xs : List β) : List (List β) := takeBlocks q (xs.length / q) xs

theorem length_takeBlocks {β : Type} (q count : Nat) (xs : List β) :
    (takeBlocks q count xs).length = count := by
  induction count generalizing xs with
  | zero => rfl
  | succ n ih => simp [takeBlocks, ih]

theorem length_blocks {β : Type} (q : Nat) (xs : List β) : (blocks q xs).length = xs.length / q :=
  length_takeBlocks q _ xs

/-- The `i`-th block holds the elements from `i * q` on. -/
theorem getElem?_takeBlocks {β : Type} (q count i : Nat) (xs : List β) (h : i < count) :
    (takeBlocks q count xs)[i]? = some ((xs.drop (i * q)).take q) := by
  induction count generalizing xs i with
  | zero => omega
  | succ n ih =>
    cases i with
    | zero => simp [takeBlocks]
    | succ j =>
      simp only [takeBlocks, List.getElem?_cons_succ]
      rw [ih j (xs.drop q) (by omega), List.drop_drop]
      congr 3
      rw [Nat.succ_mul, Nat.add_comm]

/-! ## Means and variance of the blocks -/

variable {α : Type} [Arith α]

/-- The mean of each block, without any check. -/
@[specialize] def reduceBlocks (xs : List α) (q : Nat) (method : MeanMethod) : List α :=
  (blocks q xs).map method.reduce

/-- The sum of the squared distances from a centre. -/
@[specialize] def squareSum (values : List α) (centre : α) : α :=
  Arith.sumBy (fun v => Arith.square (v - centre)) values

/-- The sum of the squared distances from a centre, over one less than the number of values. -/
@[specialize] def spread (values : List α) (centre : α) : α :=
  squareSum values centre / Arith.count (values.length - 1)

/-- A block has at least one reading and at most all of them. -/
def checkBlockSize (length q : Nat) : Checked α Unit := do
  require (1 ≤ q) .zeroBlockSize
  require (q ≤ length) (.blockTooLong q length)

/-- The block means of a checked series. -/
@[specialize] def blockMeans (xs : List α) (q : Nat) (method : MeanMethod) : Checked α (List α) := do
  checkFinite xs
  checkBlockSize xs.length q
  checkMethod xs method
  return reduceBlocks xs q method

/-- The variance of the block means around a given centre. -/
@[specialize] def blockVariance (xs : List α) (q : Nat) (centre : α) (method : MeanMethod) : Checked α α := do
  let means ← blockMeans xs q method
  require (2 ≤ means.length) (.tooFewBlocks .variance means.length xs.length q)
  require (Arith.isFinite centre = true) (.centreNotFinite centre)
  return spread means centre

end BatchMeans.Series
