import BatchMeans.Arith.Double

/- Reading a decimal number.

   A number is an optional sign followed by `inf`, `infinity` or `nan` in either case, or by
   digits with an optional point (at least one digit, on either side of it) and an optional
   exponent. Nothing else is allowed around it. The value is the nearest double. -/
namespace BatchMeans.Decimal

/-- The digits at the front of a text, and the rest. -/
def takeDigits (cs : List Char) : List Char × List Char := cs.span Char.isDigit

/-- The natural number that a list of digits denotes. -/
def digitsValue (ds : List Char) : Nat := ds.foldl (fun n c => 10 * n + (c.toNat - 48)) 0

/-- A leading sign: whether the number is negative, and the text after the sign. -/
def takeSign : List Char → Bool × List Char
  | '-' :: rest => (true, rest)
  | '+' :: rest => (false, rest)
  | cs => (false, cs)

/-- An exponent that ends the text; no exponent at all counts as zero. -/
def readExponent? : List Char → Option Int
  | [] => some 0
  | c :: rest =>
    if c = 'e' ∨ c = 'E' then
      let (negative, body) := takeSign rest
      let (ds, after) := takeDigits body
      if ds.isEmpty ∨ ¬ after.isEmpty then none
      else some (if negative then -(digitsValue ds : Int) else (digitsValue ds : Int))
    else none

/-- The double nearest to `n * 10 ^ e`. Powers of ten far outside the range of doubles are
    not computed: their side of the range decides. -/
def nearestDouble (n : Nat) (e : Int) : Float :=
  let top := (Quotient.digitCount n : Int) + e
  if n = 0 then 0.0
  else if 310 < top then 1.0 / 0.0
  else if top < -330 then 0.0
  else Float.ofScientific n (decide (e < 0)) e.natAbs

/-- The unsigned part of a number written in digits. -/
def readMagnitude? (cs : List Char) : Option Float := do
  let (whole, rest) := takeDigits cs
  let (fraction, rest) := match rest with
    | '.' :: after => takeDigits after
    | _ => ([], rest)
  if whole.isEmpty ∧ fraction.isEmpty then none
  let e ← readExponent? rest
  some (nearestDouble (digitsValue (whole ++ fraction)) (e - (fraction.length : Int)))

/-- The number that a text denotes, if it denotes one. -/
def readNumber? (text : String) : Option Float :=
  let (negative, body) := takeSign text.toList
  let word := body.map Char.toLower
  let magnitude :=
    if word = ['i', 'n', 'f'] ∨ word = ['i', 'n', 'f', 'i', 'n', 'i', 't', 'y'] then some (1.0 / 0.0)
    else if word = ['n', 'a', 'n'] then some (0.0 / 0.0)
    else readMagnitude? body
  magnitude.map fun x => if negative then -x else x

end BatchMeans.Decimal
