import BatchMeans.StudentT.CriticalValue
import BatchMeans.StudentT.Elementary
import BatchMeans.StudentT.TailSeries

/- Student's t distribution in double precision.

   The upper tail has an angle as closed form for one degree of freedom, is the tail series for
   up to 100000 degrees, and an incomplete beta function beyond. The
   starting quantile comes from the incomplete beta function for every degree. -/
namespace BatchMeans.StudentT
open Elementary

/-! ## Density -/

/-- `Γ((n+1)/2) / Γ(n/2)` for large `n`, by its asymptotic series in `x = n/2`. -/
def gammaRatioLarge (n : Float) : Float :=
  let u := 2.0 / n
  (n / 2.0).sqrt *
    (1.0 - u * (1.0 / 8.0 - u * (1.0 / 128.0 + u * (5.0 / 1024.0 - u * (21.0 / 32768.0 + u * (399.0 / 262144.0))))))

/-- `Γ((n+1)/2) / Γ(n/2)`, reached from an argument larger by twice the given number of steps. -/
def gammaRatioFrom : Nat → Float → Float
  | 0, n => gammaRatioLarge n
  | steps + 1, n => gammaRatioFrom steps (n + 2.0) * (n / (n + 1.0))

/-- The density at a value. -/
def density (df : Nat) (t : Float) : Float :=
  let n := Float.ofNat df
  let steps := if df < 200 then 100 else 0
  let scale := gammaRatioFrom steps n / (n * pi).sqrt
  scale * expNeg ((n + 1.0) / 2.0 * logOnePlus (t * t / n))

/-! ## The incomplete beta function -/

/-- `1 + r k (1 + r (k+1) (1 + ...))`, cut off after the given number of terms. -/
def ratioSeries (r : Float → Float) : Nat → Float → Float
  | 0, _ => 1.0
  | terms + 1, k => 1.0 + r k * ratioSeries r terms (k + 1.0)

/-- `1 + d i / (1 + d (i+1) / (1 + ...))`, cut off after the given number of levels. -/
def continuedFraction (d : Nat → Float) : Nat → Nat → Float
  | 0, _ => 1.0
  | levels + 1, i => 1.0 + d i / continuedFraction d levels (i + 1)

/-- The probability between zero and `t`, over `t` times the density at `t`. -/
def centralFactor (df : Nat) (t : Float) : Float :=
  let n := Float.ofNat df
  let y := t * t / (n + t * t)
  ratioSeries (fun k => ((n + 1.0) / 2.0 + k) / (1.5 + k) * y) 200 0.0

/-- The probability above `t`, over `t` times the density at `t`. -/
def tailFactor (df : Nat) (t : Float) : Float :=
  let n := Float.ofNat df
  let a := n / 2.0
  let x := n / (n + t * t)
  let level (i : Nat) : Float :=
    let m := Float.ofNat (i / 2)
    if i % 2 = 0 then m * (0.5 - m) * x / ((a + 2.0 * m - 1.0) * (a + 2.0 * m))
    else -((a + m) * (a + 0.5 + m) * x) / ((a + 2.0 * m) * (a + 2.0 * m + 1.0))
  1.0 / (n * continuedFraction level 300 1)

/-- The upper tail as an incomplete beta function: near zero one half less the central probability,
    further out a continued fraction. -/
def betaTail (df : Nat) (t : Float) : Float :=
  let unit := t * density df t
  if t * t ≤ 3.0 then 0.5 - unit * centralFactor df t else unit * tailFactor df t

/-! ## The distribution -/

/-- The upper tail as a multiple of the tail series. -/
def seriesTail (df : Nat) (t : Float) : Float :=
  let n := Float.ofNat df
  let s := n + t * t
  let x := n / s
  let sine := t / s.sqrt
  let sum := (TailSeries.tailSum df x).sum
  if df % 2 = 0 then 0.5 * sine * sum else sine * x.sqrt * sum / pi

def upperTail (df : Nat) (t : Float) : Float :=
  if 100000 < df then betaTail df t
  else if df = 1 then arctanReciprocal t / pi
  else seriesTail df t

/-- Newton steps from below: the tail is convex to the right of zero, so no step passes the value sought. -/
def ascend (df : Nat) (q : Float) : Nat → Float → Float
  | 0, t => t
  | steps + 1, t =>
    let step := (betaTail df t - q) / density df t
    if step ≤ t * 1e-12 then t else ascend df q steps (t + step)

/-- The value with probability `p` below it, for `p` at least one half. -/
def quantile (df : Nat) (p : Float) : Float :=
  if 1.0 ≤ p then 1.0 / 0.0
  else if p ≤ 0.5 then 0.0
  else ascend df (1.0 - p) 400 0.0

/-- Student's t distribution. -/
def doubleLaw : TailLaw Float := ⟨upperTail, density, quantile⟩

end BatchMeans.StudentT
