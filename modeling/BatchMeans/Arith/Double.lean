import BatchMeans.Arith
import BatchMeans.Decimal.Binary64

/- Double precision as an arithmetic: every operation rounds to the nearest
   double, infinities and undefined numbers included. A ceiling is read off the significand and exponent. -/
namespace BatchMeans

instance instArithFloat : Arith Float where
  zero := Float.ofNat 0
  one := Float.ofNat 1
  natCast := Float.ofNat
  add := Float.add
  sub := Float.sub
  mul := Float.mul
  div := Float.div
  lt := (· < ·)
  le := (· ≤ ·)
  decidableLT := Float.decLt
  decidableLE := Float.decLe
  abs := Float.abs
  isFinite := Float.isFinite

instance instRootArithFloat : RootArith Float where
  sqrt := Float.sqrt
  ceilNat := fun x => (Decimal.Binary64.ofFloat x).ceilNat

end BatchMeans
