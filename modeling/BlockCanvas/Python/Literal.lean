import BlockCanvas.Text.Blank
import BlockCanvas.Text.Digit
import BlockCanvas.Text.Escape

/-!
Python literals, and which literal a typed token means: a number, a truth value, text in matching
quotes, a single character, any other text, or nothing.
-/
namespace BlockCanvas.Python

inductive Literal where
  | int (digits : List Char)
  | float (digits : List Char)
  | bool (b : Bool)
  | char (c : Char)
  | str (text : List Char)
  | empty
  deriving DecidableEq, Repr

namespace Literal

def escapeChar (c : Char) : List Char :=
  if c == '\\' then ['\\', '\\']
  else if c == '\n' then ['\\', 'n']
  else if c == '\r' then ['\\', 'r']
  else if c == '\t' then ['\\', 't']
  else if Text.isControl c then '\\' :: 'x' :: Text.hexByte c.toNat
  else [c]

def quotedChar (quote c : Char) : List Char :=
  if c == quote then ['\\', c] else escapeChar c

def quoted (quote : Char) (text : List Char) : List Char :=
  quote :: text.flatMap (quotedChar quote) ++ [quote]

def text : Literal → List Char
  | .int digits => digits
  | .float digits => digits
  | .bool true => ['T', 'r', 'u', 'e']
  | .bool false => ['F', 'a', 'l', 's', 'e']
  | .char c => quoted '\'' [c]
  | .str text => quoted '"' text
  | .empty => ['N', 'o', 'n', 'e']

def dropSign : List Char → List Char
  | '+' :: cs => cs
  | '-' :: cs => cs
  | cs => cs

def isDigits (cs : List Char) : Bool :=
  !cs.isEmpty && cs.all Text.isDigit

def isInt (token : List Char) : Bool :=
  isDigits (dropSign token)

def isExponent : List Char → Bool
  | [] => true
  | c :: cs => (c == 'e' || c == 'E') && isDigits (dropSign cs)

def isFloat (token : List Char) : Bool :=
  let body := dropSign token
  let whole := body.takeWhile Text.isDigit
  match body.dropWhile Text.isDigit with
  | '.' :: rest =>
    let fraction := rest.takeWhile Text.isDigit
    (!whole.isEmpty || !fraction.isEmpty) && isExponent (rest.dropWhile Text.isDigit)
  | _ => false

def splitSign : List Char → List Char × List Char
  | '-' :: cs => (['-'], cs)
  | cs => ([], cs.dropWhile (· == '+'))

/-- Without leading zeros; zero has no sign. -/
def normalInt (token : List Char) : List Char :=
  let (sign, digits) := splitSign token
  match digits.dropWhile (· == '0') with
  | [] => ['0']
  | rest => sign ++ rest

def isExponentMark (c : Char) : Bool :=
  c == 'e' || c == 'E'

/-- With a digit on both sides of the point, and a small `e`. -/
def normalFloat (token : List Char) : List Char :=
  let (sign, body) := splitSign token
  let body := if body.head? == some '.' then '0' :: body else body
  let mantissa := body.takeWhile fun c => !isExponentMark c
  let mantissa := if mantissa.getLast? == some '.' then mantissa ++ ['0'] else mantissa
  match body.dropWhile fun c => !isExponentMark c with
  | [] => sign ++ mantissa
  | _ :: exponent => sign ++ mantissa ++ 'e' :: exponent

def unquoted? (token : List Char) : Option (List Char) :=
  match token with
  | q :: rest =>
    if (q == '"' || q == '\'') && rest.getLast? == some q then some rest.dropLast else none
  | [] => none

def infer (raw : List Char) : Literal :=
  let token := Text.trim raw
  if token.isEmpty then .empty
  else if isInt token then .int (normalInt token)
  else if isFloat token then .float (normalFloat token)
  else if token.map Char.toLower == ['t', 'r', 'u', 'e'] then .bool true
  else if token.map Char.toLower == ['f', 'a', 'l', 's', 'e'] then .bool false
  else
    match unquoted? token with
    | some inner => .str inner
    | none =>
      match token with
      | [c] => .char c
      | _ => .str token

end Literal
end BlockCanvas.Python
