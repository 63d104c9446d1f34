import BatchMeans.Arith.Double

/- Elementary functions of doubles, by argument halving and a short series.

   Every definition here unfolds to the four operations and the square root,
   so that a critical value can be evaluated inside a proof. -/
namespace BatchMeans.Elementary

def pi : Float := 3.141592653589793

/-- `1/n + z (1/(n+2) + z (1/(n+4) + ...))`, cut off after the given number of terms. -/
def oddReciprocals (z : Float) : Nat → Float → Float
  | 0, _ => 0.0
  | terms + 1, n => 1.0 / n + z * oddReciprocals z terms (n + 2.0)

/-- Apply `f` the given number of times. -/
def iterate (f : Float → Float) : Nat → Float → Float
  | 0, x => x
  | n + 1, x => iterate f n (f x)

/-- The tangent of half the angle whose tangent is `x`. -/
def halveTangent (x : Float) : Float := x / (1.0 + (1.0 + x * x).sqrt)

/-- The angle whose tangent is `x`, for `x` between zero and one. -/
def arctanBelowOne (x : Float) : Float :=
  let y := iterate halveTangent 3 x
  8.0 * y * oddReciprocals (-(y * y)) 14 1.0

/-- The angle whose tangent is the reciprocal of a positive number. -/
def arctanReciprocal (t : Float) : Float :=
  if 1.0 ≤ t then arctanBelowOne (1.0 / t) else pi / 2.0 - arctanBelowOne t

/-- `sqrt (1 + u) - 1`, which halves the logarithm of `1 + u`. -/
def halveLogarithm (u : Float) : Float := u / (1.0 + (1.0 + u).sqrt)

/-- The logarithm of `1 + u`, for `u` not negative. -/
def logOnePlus (u : Float) : Float :=
  let v := iterate halveLogarithm 10 u
  let z := v / (2.0 + v)
  2048.0 * z * oddReciprocals (z * z) 10 1.0

/-- `1 + r/n (1 + r/(n+1) (1 + ...))`, cut off after the given number of terms. -/
def exponentialSeries (r : Float) : Nat → Float → Float
  | 0, _ => 1.0
  | terms + 1, n => 1.0 + r / n * exponentialSeries r terms (n + 1.0)

/-- The exponential of `-y`, for `y` not negative. -/
def expNeg (y : Float) : Float :=
  iterate (fun e => e * e) 10 (exponentialSeries (-(y / 1024.0)) 20 1.0)

end BatchMeans.Elementary
