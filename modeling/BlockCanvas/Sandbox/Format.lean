import BlockCanvas.Sandbox.Escapes

/-!
Formats: text with directives that take arguments. A format is used again as long as arguments are
left. An argument that is not the number asked for is complained of and counts as far as it is one.
-/
namespace BlockCanvas.Sandbox
open Host

inductive Dialect where
  | builtin
  | program
  deriving DecidableEq, Repr

namespace Format

/-! ## Directives -/

inductive Amount where
  | absent
  | given (n : Nat)
  | argument
  deriving DecidableEq, Repr

structure Directive where
  flags : List Char
  width : Amount
  precision : Amount
  letter : Char
  deriving DecidableEq, Repr

inductive Part where
  | bytes (data : Bytes)
  | directive (d : Directive)
  | stop
  | invalid (text : String)
  | unfinished

def amount (cs : List Char) : Amount × List Char :=
  match cs with
  | '*' :: rest => (.argument, rest)
  | _ =>
    let ds := cs.takeWhile Char.isDigit
    (if ds.isEmpty then .absent else .given (Decimal.natOf ds), cs.drop ds.length)

def isFlag (c : Char) : Bool :=
  c == '-' || c == '0' || c == '+' || c == ' ' || c == '#'

def isInteger (c : Char) : Bool :=
  c == 'd' || c == 'i' || c == 'u' || c == 'o' || c == 'x' || c == 'X'

def isFloat (c : Char) : Bool :=
  c == 'e' || c == 'E' || c == 'f' || c == 'F' || c == 'g' || c == 'G'

def directiveOf (cs : List Char) : Part × List Char :=
  let flags := cs.takeWhile isFlag
  let (width, rest) := amount (cs.drop flags.length)
  let (precision, rest) : Amount × List Char := match rest with
    | '.' :: rest =>
      match amount rest with
      | (.absent, rest) => (.given 0, rest)
      | found => found
    | rest => (.absent, rest)
  match rest with
  | [] => (.unfinished, [])
  | letter :: rest =>
    if isInteger letter || isFloat letter || letter == 's' || letter == 'b' || letter == 'c' then
      (.directive ⟨flags, width, precision, letter⟩, rest)
    else (.invalid (String.ofList ('%' :: cs.take (cs.length - rest.length))), rest)

def parts (known : Escapes) : Nat → List Char → List Part
  | 0, _ => []
  | _ + 1, [] => []
  | n + 1, '%' :: '%' :: cs => .bytes [37] :: parts known n cs
  | n + 1, '%' :: cs =>
    let (part, rest) := directiveOf cs
    part :: parts known n rest
  | n + 1, '\\' :: cs =>
    match known.read cs with
    | (none, _) => [.stop]
    | (some data, rest) => .bytes data :: parts known n rest
  | n + 1, c :: cs => .bytes (charBytes c) :: parts known n cs

/-! ## Numbers -/

inductive Value where
  | nan (negative : Bool)
  | infinite (negative : Bool)
  | finite (negative : Bool) (top bottom : Nat)

/-- The quotient to the nearest whole number, a tie to the even one. -/
def nearest (top bottom : Nat) : Nat :=
  let q := top / bottom
  let r := 2 * (top % bottom)
  if r > bottom || (r == bottom && q % 2 == 1) then q + 1 else q

def scaled (top bottom : Nat) (places : Int) : Nat :=
  nearest (top * Nat.pow 10 places.toNat) (bottom * Nat.pow 10 (-places).toNat)

def pointed (places : Nat) (n : Nat) : List Char :=
  let ds := Nat.toDigits 10 n
  let ds := List.replicate (places + 1 - ds.length) '0' ++ ds
  let whole := ds.take (ds.length - places)
  if places == 0 then whole else whole ++ '.' :: ds.drop whole.length

def magnitude (top bottom : Nat) : Int :=
  let guess : Int := (Nat.toDigits 10 top).length - (Nat.toDigits 10 bottom).length
  if bottom * Nat.pow 10 guess.toNat ≤ top * Nat.pow 10 (-guess).toNat then guess else guess - 1

def leading (top bottom places : Nat) : Nat × Int :=
  if top == 0 then (0, 0)
  else
    let e := magnitude top bottom
    let n := scaled top bottom (places - e)
    if n < Nat.pow 10 (places + 1) then (n, e) else (n / 10, e + 1)

def exponentText (e : Int) : List Char :=
  let ds := Nat.toDigits 10 e.natAbs
  'e' :: (if e < 0 then '-' else '+') :: List.replicate (2 - ds.length) '0' ++ ds

def shortened (cs : List Char) : List Char :=
  if cs.contains '.' then
    let kept := (cs.reverse.dropWhile (· == '0')).reverse
    if kept.getLast? == some '.' then kept.dropLast else kept
  else cs

def floatDigits (letter : Char) (alternate : Bool) (precision : Nat) (top bottom : Nat) : List Char :=
  match letter with
  | 'f' =>
    let cs := pointed precision (scaled top bottom precision)
    if alternate && precision == 0 then cs ++ ['.'] else cs
  | 'e' =>
    let (n, e) := leading top bottom precision
    pointed precision n ++ exponentText e
  | _ =>
    let p := max precision 1
    let (n, e) := leading top bottom (p - 1)
    let trim (cs : List Char) : List Char := if alternate then cs else shortened cs
    if -4 ≤ e && e < p then
      let places := (p - 1 - e).toNat
      trim (pointed places (scaled top bottom places))
    else trim (pointed (p - 1) n) ++ exponentText e

def decimalPrefix (cs : List Char) : Option (Decimal × List Char) :=
  let whole := cs.takeWhile Char.isDigit
  let rest := cs.drop whole.length
  let (fraction, rest) : List Char × List Char := match rest with
    | '.' :: more => (more.takeWhile Char.isDigit, more.dropWhile Char.isDigit)
    | _ => ([], rest)
  if whole.isEmpty && fraction.isEmpty then none
  else
    let (exponent, rest) : Int × List Char := match rest with
      | e :: more =>
        let (negative, ds) : Bool × List Char := match more with
          | '-' :: ds => (true, ds)
          | '+' :: ds => (false, ds)
          | ds => (false, ds)
        let found := ds.takeWhile Char.isDigit
        if (e == 'e' || e == 'E') && !found.isEmpty then
          ((if negative then -(Decimal.natOf found : Int) else Decimal.natOf found),
            ds.drop found.length)
        else (0, rest)
      | [] => (0, [])
    some (⟨Decimal.natOf (whole ++ fraction), exponent - fraction.length⟩, rest)

def ofBinary (negative : Bool) : Binary → Value
  | .nan => .nan negative
  | .infinite _ => .infinite negative
  | .finite _ m q => .finite negative (m * Nat.pow 2 q.toNat) (Nat.pow 2 (-q).toNat)

def floatPrefix (cs : List Char) : Option (Value × List Char) :=
  let (negative, body) : Bool × List Char := match cs.dropWhile Arithmetic.isGap with
    | '-' :: cs => (true, cs)
    | '+' :: cs => (false, cs)
    | cs => (false, cs)
  let word (n : Nat) : String := String.ofList ((body.take n).map Char.toLower)
  if word 8 == "infinity" then some (.infinite negative, body.drop 8)
  else if word 3 == "inf" then some (.infinite negative, body.drop 3)
  else if word 3 == "nan" then some (.nan negative, body.drop 3)
  else if word 2 == "0x" then
    (Arithmetic.number? body).map fun (n, rest) => (.finite negative n 1, rest)
  else
    (decimalPrefix body).map fun (d, rest) =>
      (ofBinary negative (Binary.ofFloat (Decimal.toFloat d)), rest)

/-! ## Printing -/

inductive Complaint where
  | notNumeric (text : String)
  | incomplete (text : String)
  | outOfRange (text : String)
  | invalid (text : String)
  | unfinished
  | excess (text : String)
  deriving DecidableEq, Repr

def Complaint.text : Dialect → Complaint → String
  | .builtin, .notNumeric s => s ++ ": expected numeric value"
  | .builtin, .incomplete s => s ++ ": not completely converted"
  | .builtin, .outOfRange s => s ++ ": Numerical result out of range"
  | .builtin, .invalid s => s ++ ": invalid directive"
  | .builtin, .unfinished => "missing format character"
  | .program, .notNumeric s => "'" ++ s ++ "': expected a numeric value"
  | .program, .incomplete s => "'" ++ s ++ "': value not completely converted"
  | .program, .outOfRange s => "'" ++ s ++ "': Numerical result out of range"
  | .program, .invalid s => s ++ ": invalid conversion specification"
  | .program, .unfinished => "%: invalid conversion specification"
  | _, .excess s => "warning: ignoring excess arguments, starting with '" ++ s ++ "'"

def Complaint.isFatal : Complaint → Bool
  | .invalid _ => true
  | .unfinished => true
  | _ => false

structure Printing where
  arguments : List String
  printed : List Bytes := []
  complaints : List Complaint := []
  stopped : Bool := false

abbrev Print := StateM Printing

def argument : Print (Option String) := do
  let p ← get
  set { p with arguments := p.arguments.tail }
  return p.arguments.head?

def complain (c : Complaint) : Print Unit :=
  modify fun p => { p with complaints := c :: p.complaints, stopped := p.stopped || c.isFatal }

def emit (data : Bytes) : Print Unit :=
  modify fun p => { p with printed := data :: p.printed }

def numeric {α : Type} (zero : α) (ofByte : UInt8 → α) (read : List Char → Option (α × List Char))
    (text : String) : Print α := do
  match text.toList with
  | [] => return zero
  | q :: c =>
    if q == '\'' || q == '"' then return ofByte ((Text.utf8 (String.ofList c)).headD 0)
    else
      match read text.toList with
      | none =>
        complain (.notNumeric text)
        return zero
      | some (value, rest) =>
        if !rest.isEmpty then complain (.incomplete text)
        return value

def wholePrefix (cs : List Char) : Option (Int × List Char) :=
  match cs.dropWhile Arithmetic.isGap with
  | '-' :: cs => (Arithmetic.number? cs).map fun (n, rest) => (-(n : Int), rest)
  | '+' :: cs => (Arithmetic.number? cs).map fun (n, rest) => ((n : Int), rest)
  | cs => (Arithmetic.number? cs).map fun (n, rest) => ((n : Int), rest)

def integer (letter : Char) (text : String) : Print Int := do
  let n ← numeric 0 (fun b => (b.toNat : Int)) wholePrefix text
  if letter == 'd' || letter == 'i' then
    if Arithmetic.clamped n != n then complain (.outOfRange text)
    return Arithmetic.clamped n
  else if n < -Int.pow 2 64 || Int.pow 2 64 ≤ n then
    complain (.outOfRange text)
    return Int.pow 2 64 - 1
  else return n % Int.pow 2 64

structure Field where
  flags : List Char
  width : Nat
  precision : Option Nat
  letter : Char

namespace Field

def has (f : Field) (flag : Char) : Bool :=
  f.flags.contains flag

def padded (f : Field) (text : Bytes) : Bytes :=
  let blanks := List.replicate (f.width - text.length) (32 : UInt8)
  if f.has '-' then text ++ blanks else blanks ++ text

def sign (f : Field) (negative : Bool) : List Char :=
  if negative then ['-'] else if f.has '+' then ['+'] else if f.has ' ' then [' '] else []

def number (f : Field) (sign text : List Char) (zeros : Bool) : Bytes :=
  let fill := if zeros && f.has '0' && !f.has '-' then f.width - sign.length - text.length else 0
  f.padded (Text.utf8 (String.ofList (sign ++ List.replicate fill '0' ++ text)))

def integerText (f : Field) (n : Int) : Bytes :=
  let base := match f.letter with
    | 'o' => 8
    | 'x' => 16
    | 'X' => 16
    | _ => 10
  let ds := Nat.toDigits base n.natAbs
  let ds := if f.letter == 'X' then ds.map Char.toUpper else ds
  let ds := if f.precision == some 0 && n == 0 then [] else ds
  let ds := List.replicate ((f.precision.getD 0) - ds.length) '0' ++ ds
  let ds := if f.letter == 'o' && f.has '#' && ds.head? != some '0' then '0' :: ds else ds
  let signed := f.letter == 'd' || f.letter == 'i'
  let hexMark : List Char :=
    if f.has '#' && n != 0 && base == 16 then ['0', f.letter] else []
  f.number ((if signed then f.sign (n < 0) else []) ++ hexMark) ds f.precision.isNone

def floatText (f : Field) (v : Value) : Bytes :=
  let letter := f.letter.toLower
  let shown (cs : List Char) : List Char := if f.letter.isUpper then cs.map Char.toUpper else cs
  match v with
  | .nan negative => f.number (f.sign negative) (shown ['n', 'a', 'n']) false
  | .infinite negative => f.number (f.sign negative) (shown ['i', 'n', 'f']) false
  | .finite negative top bottom =>
    f.number (f.sign negative)
      (shown (floatDigits letter (f.has '#') (f.precision.getD 6) top bottom)) true

end Field

structure Reading where
  format : Escapes
  argument : Escapes

def reading : Dialect → Reading
  | .builtin => ⟨{}, { longZero := true, stops := true }⟩
  | .program =>
    ⟨{ hex := true, stops := true, quote := true },
      { longZero := true, hex := true, stops := true, quote := true }⟩

/-- The value of an amount. A negative one is given to the flags as a minus sign. -/
def resolve : Amount → Print (Option Int)
  | .absent => return none
  | .given n => return some n
  | .argument => do
    return some (← integer 'd' ((← argument).getD ""))

def directed (r : Reading) (d : Directive) : Print Unit := do
  let width ← resolve d.width
  let precision ← resolve d.precision
  let flags := if width.any (· < 0) then '-' :: d.flags else d.flags
  let f : Field :=
    ⟨flags, (width.getD 0).natAbs, precision.bind (fun p => if p < 0 then none else some p.toNat),
      d.letter⟩
  let given ← argument
  let text := given.getD ""
  if isInteger d.letter then emit (f.integerText (← integer d.letter text))
  else if isFloat d.letter then
    let v ← numeric (Value.finite false 0 1) (fun b => .finite false b.toNat 1) floatPrefix text
    emit (f.floatText v)
  else if d.letter == 'c' then emit (f.padded ((Text.utf8 text).take 1))
  else if d.letter == 'b' then
    let (data, stopped) := r.argument.bytes text
    emit (f.padded data)
    if stopped then modify fun p => { p with stopped }
  else
    let data := Text.utf8 text
    emit (f.padded (match f.precision with
      | some n => data.take n
      | none => data))

def once (r : Reading) : List Part → Print Unit
  | [] => pure ()
  | part :: rest => do
    match part with
    | .bytes data => emit data
    | .directive d => directed r d
    | .stop => modify fun p => { p with stopped := true }
    | .invalid text => complain (.invalid text)
    | .unfinished => complain .unfinished
    if !(← get).stopped then once r rest

def again (r : Reading) (format : List Part) : Nat → Print Unit
  | 0 => pure ()
  | n + 1 => do
    let before := (← get).arguments.length
    once r format
    let p ← get
    match p.arguments with
    | [] => pure ()
    | next :: _ =>
      if p.arguments.length == before then
        if !p.stopped then complain (.excess next)
      else if !p.stopped then again r format n

def print (dialect : Dialect) (format : String) (arguments : List String) :
    Bytes × List Complaint :=
  let r := reading dialect
  let start : Printing := { arguments }
  let (_, p) := (again r (parts r.format (format.length + 1) format.toList)
    (arguments.length + 1)).run start
  (p.printed.reverse.flatten, p.complaints.reverse)

end Format
end BlockCanvas.Sandbox
