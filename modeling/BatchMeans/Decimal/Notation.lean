import BatchMeans.Decimal.Figures

/- How numbers are written.

   A `NumberFormat` fixes what is free once the digits are chosen: which numbers
   are written out in full, the mark of an exponent, and the words for numbers
   that are not finite. The formats of the library are its four values. -/
namespace BatchMeans.Decimal

structure NumberFormat where
  rule : DigitRule
  /-- Whether a number whose first digit counts this power of ten is written without an exponent. -/
  positional : Int → Bool
  /-- Whether a whole number written without an exponent still shows a fraction. -/
  keepFraction : Bool
  /-- Whether a positive exponent has its sign. -/
  signedExponent : Bool
  undefinedText : String
  infiniteText : Bool → String

namespace NumberFormat

private def infinityWord (negative : Bool) : String := if negative then "-inf" else "inf"

/-- Shortest digits in scientific notation. -/
def exact : NumberFormat where
  rule := .shortest .upward
  positional := fun _ => false
  keepFraction := false
  signedExponent := false
  undefinedText := "NaN"
  infiniteText := infinityWord

/-- Ten significant digits in scientific notation. -/
def tenDigits : NumberFormat := { exact with rule := .rounded 10 }

/-- Shortest digits written out in full; messages and reports use it. -/
def plain : NumberFormat := { exact with positional := fun _ => true }

/-- The numbers of a JSON document: in full from `0.00001` to below `10 ^ 16` and then always with
    a fraction; what is not finite has no JSON number and is null. -/
def json : NumberFormat where
  rule := .shortest .toEven
  positional := fun e => decide (-5 ≤ e ∧ e < 16)
  keepFraction := true
  signedExponent := true
  undefinedText := "null"
  infiniteText := fun _ => "null"

/-- Digits around a decimal point, with the zeros that their place asks for. -/
def writePositional (f : NumberFormat) (d : Figures) : List Char :=
  if d.exponent < 0 then
    '0' :: '.' :: (List.replicate (-d.exponent - 1).toNat '0' ++ d.digits)
  else
    let whole := d.exponent.toNat + 1
    let missing := whole - d.digits.length
    let fraction := d.digits.drop whole
    d.digits.take whole ++ List.replicate missing '0' ++
      (if fraction.isEmpty then (if f.keepFraction then ['.', '0'] else []) else '.' :: fraction)

/-- One digit, the others after a point, then the power of ten. -/
def writeScientific (f : NumberFormat) (d : Figures) : List Char :=
  let mantissa := match d.digits with
    | [] => []
    | [c] => [c]
    | c :: rest => c :: '.' :: rest
  let sign := if d.exponent < 0 then ['-'] else if f.signedExponent then ['+'] else []
  mantissa ++ 'e' :: (sign ++ Nat.toDigits 10 d.exponent.natAbs)

/-- The text of a number taken apart. -/
def writeBinary (f : NumberFormat) : Binary64 → String
  | .undefined => f.undefinedText
  | .infinite negative => f.infiniteText negative
  | .finite negative m e =>
    let d := Figures.ofBinary f.rule m e
    let body := if f.positional d.exponent then f.writePositional d else f.writeScientific d
    String.ofList (if negative then '-' :: body else body)

def write (f : NumberFormat) (x : Float) : String := f.writeBinary (Binary64.ofFloat x)

end NumberFormat
end BatchMeans.Decimal
