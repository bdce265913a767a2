import BlockCanvas.Decimal.Shortest

/-!
Written forms of doubles: the positional form of the workspace format, the mixed form of JSON
numbers, and the reading of decimal text with correct rounding.
-/
namespace BlockCanvas
namespace Decimal

def zeros (n : Nat) : List Char :=
  List.replicate n '0'

def positional (d : Decimal) : List Char :=
  let ds := d.digits
  match d.exponent with
  | .ofNat e => ds ++ zeros e
  | .negSucc e =>
    if ds.length > e + 1 then
      ds.take (ds.length - (e + 1)) ++ '.' :: ds.drop (ds.length - (e + 1))
    else
      '0' :: '.' :: (zeros (e + 1 - ds.length) ++ ds)

def magnitude (d : Decimal) : Int :=
  d.exponent + d.digits.length - 1

def scientific (d : Decimal) : List Char :=
  let ds := d.digits
  let mantissa := if ds.length > 1 then ds.take 1 ++ '.' :: ds.drop 1 else ds
  let e := d.magnitude
  mantissa ++ 'e' :: (if e < 0 then '-' else '+') :: Nat.toDigits 10 e.natAbs

/-- Positional with a fraction for magnitudes from -5 to 15, scientific outside; negative exponents
and positive ones both carry their sign. -/
def mixed (d : Decimal) : List Char :=
  if -5 ≤ d.magnitude && d.magnitude ≤ 15 then
    if d.exponent < 0 then d.positional else d.positional ++ ['.', '0']
  else d.scientific

end Decimal

namespace Binary

def sign (negative : Bool) : List Char :=
  if negative then ['-'] else []

def positional : Binary → String
  | .nan => "NaN"
  | .infinite negative => String.ofList (sign negative ++ ['i', 'n', 'f'])
  | .finite negative m q =>
    String.ofList (sign negative ++ if m == 0 then ['0'] else (shortest .up m q).positional)

/-- The text of a finite double as a JSON number, a tie going to the even digit; JSON has no word for
the others. -/
def json? : Binary → Option String
  | .nan => none
  | .infinite _ => none
  | .finite negative m q =>
    some (String.ofList (sign negative ++ if m == 0 then ['0', '.', '0'] else (shortest .even m q).mixed))

end Binary

namespace Decimal

def floatText (x : Float) : String :=
  (Binary.ofFloat x).positional

/-- The double nearest to a decimal. Magnitudes far outside the range of doubles are answered
without forming the power of ten. -/
def toFloat (d : Decimal) : Float :=
  let size : Int := d.exponent + d.digits.length
  if d.significand == 0 then 0
  else if size > 400 then 1.0 / 0.0
  else if size < -400 then 0
  else Float.ofScientific d.significand (d.exponent < 0) d.exponent.natAbs

def asciiDigit (c : Char) : Bool :=
  '0' ≤ c && c ≤ '9'

def natOf (ds : List Char) : Nat :=
  ds.foldl (fun n c => 10 * n + (c.toNat - 48)) 0

def exponentOf? : List Char → Option Int
  | [] => some 0
  | c :: rest =>
    if c == 'e' || c == 'E' then
      let (negative, ds) : Bool × List Char := match rest with
        | '-' :: ds => (true, ds)
        | '+' :: ds => (false, ds)
        | ds => (false, ds)
      if ds.isEmpty || !ds.all asciiDigit then none
      else some (if negative then -(natOf ds : Int) else natOf ds)
    else none

def ofText? (cs : List Char) : Option Decimal :=
  let whole := cs.takeWhile asciiDigit
  let rest := cs.dropWhile asciiDigit
  let (fraction, tail) := match rest with
    | '.' :: r => (r.takeWhile asciiDigit, r.dropWhile asciiDigit)
    | r => ([], r)
  if whole.isEmpty && fraction.isEmpty then none
  else (exponentOf? tail).map fun e => ⟨natOf (whole ++ fraction), e - fraction.length⟩

def floatOfText? (s : String) : Option Float :=
  let (negative, body) : Bool × List Char := match s.toList with
    | '-' :: cs => (true, cs)
    | '+' :: cs => (false, cs)
    | cs => (false, cs)
  let magnitude? : Option Float :=
    let word := String.ofList (body.map Char.toLower)
    if word == "inf" || word == "infinity" then some (1.0 / 0.0)
    else if word == "nan" then some (0.0 / 0.0)
    else (ofText? body).map toFloat
  magnitude?.map fun x => if negative then -x else x

end Decimal

end BlockCanvas
