import BlockCanvas.Json.Basic
import BlockCanvas.Text.Blank

/-!
A strict reader of JSON text. At most 127 containers may be open at once, a number too large for a
double is refused, and of repeated keys the last wins. A number with a fraction or an exponent is read
as the nearest double. (The package that the program is built with scales the digits by a power of ten
in doubles, so there the last bit may differ, and numbers just below the largest double are refused.)
Each reader answers with the characters it left; the fuel of the readers that call each other is the
length of the text, and every one of their steps takes a character.
-/
namespace BlockCanvas.Json

def skipSpacing (cs : List Char) : List Char :=
  cs.dropWhile Text.isSpacing

def hexValue? (c : Char) : Option Nat :=
  if '0' ≤ c && c ≤ '9' then some (c.toNat - 48)
  else if 'a' ≤ c && c ≤ 'f' then some (c.toNat - 87)
  else if 'A' ≤ c && c ≤ 'F' then some (c.toNat - 55)
  else none

def readUnit : List Char → Option (Nat × List Char)
  | a :: b :: c :: d :: rest => do
    let a ← hexValue? a
    let b ← hexValue? b
    let c ← hexValue? c
    let d ← hexValue? d
    some (((a * 16 + b) * 16 + c) * 16 + d, rest)
  | _ => none

/-- The character of an escape by number. A unit of a surrogate pair needs its other half. -/
def readEscape (cs : List Char) : Option (Char × List Char) :=
  match readUnit cs with
  | none => none
  | some (high, rest) =>
    if 0xD800 ≤ high && high < 0xDC00 then
      match rest with
      | '\\' :: 'u' :: more =>
        match readUnit more with
        | some (low, rest) =>
          if 0xDC00 ≤ low && low < 0xE000 then
            some (Char.ofNat (0x10000 + (high - 0xD800) * 0x400 + (low - 0xDC00)), rest)
          else none
        | none => none
      | _ => none
    else if 0xDC00 ≤ high && high < 0xE000 then none
    else some (Char.ofNat high, rest)

def shortEscape? (c : Char) : Option Char :=
  if c == '"' || c == '\\' || c == '/' then some c
  else if c == 'b' then some '\x08'
  else if c == 'f' then some '\x0c'
  else if c == 'n' then some '\n'
  else if c == 'r' then some '\r'
  else if c == 't' then some '\t'
  else none

def readChars : Nat → List Char → List Char → Option (List Char × List Char)
  | 0, _, _ => none
  | n + 1, seen, cs =>
    match cs with
    | [] => none
    | '"' :: rest => some (seen.reverse, rest)
    | '\\' :: 'u' :: rest =>
      match readEscape rest with
      | some (c, rest) => readChars n (c :: seen) rest
      | none => none
    | '\\' :: c :: rest =>
      match shortEscape? c with
      | some c => readChars n (c :: seen) rest
      | none => none
    | c :: rest => if c.toNat < 0x20 then none else readChars n (c :: seen) rest

def readString (cs : List Char) : Option (String × List Char) :=
  (readChars (cs.length + 1) [] cs).map fun r => (String.ofList r.1, r.2)

/-- A whole number of 64 bits, signed or unsigned, and any other number as the nearest double. -/
def readNumber (negative : Bool) (whole : List Char) (rest : List Char) :
    Option (Json × List Char) :=
  let (fraction, marked, afterFraction) : List Char × Bool × List Char := match rest with
    | '.' :: r => (r.takeWhile Decimal.asciiDigit, true, r.dropWhile Decimal.asciiDigit)
    | r => ([], false, r)
  let exponent? : Option (Option Int × List Char) := match afterFraction with
    | c :: r =>
      if c == 'e' || c == 'E' then
        let (negative, ds) : Bool × List Char := match r with
          | '-' :: ds => (true, ds)
          | '+' :: ds => (false, ds)
          | ds => (false, ds)
        let digits := ds.takeWhile Decimal.asciiDigit
        if digits.isEmpty then none
        else
          let e : Int := if negative then -(Decimal.natOf digits : Int) else Decimal.natOf digits
          some (some e, ds.dropWhile Decimal.asciiDigit)
      else some (none, c :: r)
    | [] => some (none, [])
  match exponent? with
  | none => none
  | some (e?, tail) =>
    if marked && fraction.isEmpty then none
    else if whole.isEmpty || (whole.head? == some '0' && whole.length > 1) then none
    else
      let n := Decimal.natOf whole
      if !marked && e?.isNone && !negative && n < Nat.pow 2 64 then some (.int n, tail)
      else if !marked && e?.isNone && negative && 0 < n && n ≤ Nat.pow 2 63 then
        some (.int (-n), tail)
      else
        let d : Decimal := ⟨Decimal.natOf (whole ++ fraction), e?.getD 0 - fraction.length⟩
        let x := d.toFloat
        match Binary.ofFloat x with
        | .finite .. => some (.real (if negative then -x else x), tail)
        | _ => none

def readWord (word : String) (value : Json) (cs : List Char) : Option (Json × List Char) :=
  if word.toList.isPrefixOf cs then some (value, cs.drop word.length) else none

def readScalar (cs : List Char) : Option (Json × List Char) :=
  match cs with
  | '"' :: rest => (readString rest).map fun r => (.string r.1, r.2)
  | 'n' :: _ => readWord "null" .null cs
  | 't' :: _ => readWord "true" (.bool true) cs
  | 'f' :: _ => readWord "false" (.bool false) cs
  | '-' :: rest =>
    readNumber true (rest.takeWhile Decimal.asciiDigit) (rest.dropWhile Decimal.asciiDigit)
  | _ => readNumber false (cs.takeWhile Decimal.asciiDigit) (cs.dropWhile Decimal.asciiDigit)

mutual
/-- A value with no spacing before it; `depth` counts the containers that may still be opened. -/
def readValue (fuel depth : Nat) (cs : List Char) : Option (Json × List Char) :=
  match fuel with
  | 0 => none
  | fuel + 1 =>
    match cs with
    | '[' :: rest =>
      match depth with
      | 0 => none
      | depth + 1 =>
        match skipSpacing rest with
        | ']' :: tail => some (.array [], tail)
        | rest => (readItems fuel depth [] rest).map fun r => (.array r.1, r.2)
    | '\x7b' :: rest =>
      match depth with
      | 0 => none
      | depth + 1 =>
        match skipSpacing rest with
        | '\x7d' :: tail => some (.object [], tail)
        | rest => (readMembers fuel depth [] rest).map fun r => (.object r.1, r.2)
    | _ => readScalar cs
def readItems (fuel depth : Nat) (seen : List Json) (cs : List Char) :
    Option (List Json × List Char) :=
  match fuel with
  | 0 => none
  | fuel + 1 =>
    match readValue fuel depth cs with
    | none => none
    | some (item, rest) =>
      match skipSpacing rest with
      | ',' :: rest => readItems fuel depth (item :: seen) (skipSpacing rest)
      | ']' :: rest => some ((item :: seen).reverse, rest)
      | _ => none
def readMembers (fuel depth : Nat) (seen : List (String × Json)) (cs : List Char) :
    Option (List (String × Json) × List Char) :=
  match fuel with
  | 0 => none
  | fuel + 1 =>
    match cs with
    | '"' :: rest =>
      match readString rest with
      | none => none
      | some (key, rest) =>
        match skipSpacing rest with
        | ':' :: rest =>
          match readValue fuel depth (skipSpacing rest) with
          | none => none
          | some (value, rest) =>
            let seen := insertMember key value seen
            match skipSpacing rest with
            | ',' :: rest => readMembers fuel depth seen (skipSpacing rest)
            | '\x7d' :: rest => some (seen, rest)
            | _ => none
        | _ => none
    | _ => none
end

def parse? (text : String) : Option Json :=
  let cs := text.toList
  match readValue (2 * cs.length + 2) maxDepth (skipSpacing cs) with
  | some (value, rest) => if (skipSpacing rest).isEmpty then some value else none
  | none => none

end BlockCanvas.Json
