import BatchMeans.Arith

/- The series for the upper tail of Student's t.

   For integer degrees of freedom the tail is a multiple of the remainder of a
   series of positive terms in `x = df / (df + t^2)`:

     even df:  sum over k ≥ df/2      of  (2k-1)!!/(2k)!!  x^k
     odd df:   sum over k ≥ (df-1)/2  of  (2k)!!/(2k+1)!!  x^k

   Nothing is subtracted, so a small tail keeps its relative precision. Terms
   are added until the next one no longer counts against the sum. -/
namespace BatchMeans.StudentT.TailSeries
variable {α : Type} [Arith α]

/-- The quotient of the coefficients of `x^(k+1)` and `x^k`. -/
@[inline] def coefficientRatio (even : Bool) (k : α) : α :=
  let two : α := Arith.count 2
  if even then (two * k + 1) / (two * k + two)
  else (two * k + two) / (two * k + Arith.count 3)

/-- The term after the term of index `k`. -/
@[inline] def nextTerm (even : Bool) (x : α) (k : Nat) (term : α) : α :=
  term * (x * coefficientRatio even (Arith.count k))

/-- The index of the first term that belongs to the tail. -/
def firstIndex (df : Nat) : Nat := if df % 2 = 0 then df / 2 else (df - 1) / 2

/-- The term of index `k + count`, from the term of index `k`. -/
@[specialize] def advance (even : Bool) (x : α) : Nat → Nat → α → α
  | 0, _, term => term
  | count + 1, k, term => advance even x count (k + 1) (nextTerm even x k term)

/-- The first term of the tail. -/
@[specialize] def firstTerm (df : Nat) (x : α) : α := advance (df % 2 == 0) x (firstIndex df) 0 1

/-- A term counts while it exceeds a quarter of the unit `2 ^ -52` of the sum. -/
@[inline] def counts (term sum : α) : Bool :=
  decide (sum * Arith.ratio 1 4503599627370496 * Arith.ratio 1 4 < term)

/-- A partial sum: the index and value of the next term, and the sum of the terms before it. -/
structure PartialSum (α : Type) where
  index : Nat
  term : α
  sum : α

/-- Add terms while they count, at most `fuel` of them. -/
@[specialize] def addTerms (even : Bool) (x : α) : Nat → Nat → α → α → PartialSum α
  | 0, k, term, sum => ⟨k, term, sum⟩
  | fuel + 1, k, term, sum =>
    if counts term sum then addTerms even x fuel (k + 1) (nextTerm even x k term) (sum + term)
    else ⟨k, term, sum⟩

/-- Far more terms than any sum takes. -/
def fuel : Nat := 4611686018427387904

/-- The sum of the terms that count. -/
@[specialize] def tailSum (df : Nat) (x : α) : PartialSum α :=
  addTerms (df % 2 == 0) x fuel (firstIndex df) (firstTerm df x) 0

end BatchMeans.StudentT.TailSeries
