import BlockCanvas.Sandbox.Arithmetic
import BlockCanvas.Sandbox.Flow

/-!
Escapes in the arguments of commands: bytes by number and control characters by letter.
-/
namespace BlockCanvas.Sandbox
open Host

def isOctal (c : Char) : Bool :=
  '0' ≤ c && c ≤ '7'

def byte (n : Nat) : UInt8 :=
  UInt8.ofNat (n % 256)

def charBytes (c : Char) : Bytes :=
  Text.utf8 (String.singleton c)

def control? : Char → Option UInt8
  | 'a' => some 7
  | 'b' => some 8
  | 't' => some 9
  | 'n' => some 10
  | 'v' => some 11
  | 'f' => some 12
  | 'r' => some 13
  | 'e' => some 27
  | '\\' => some 92
  | _ => none

structure Escapes where
  longZero : Bool := false
  hex : Bool := false
  stops : Bool := false
  quote : Bool := false
  deriving DecidableEq, Repr

namespace Escapes

def digits (n : Nat) (isDigit : Char → Bool) (cs : List Char) : List Char :=
  (cs.take n).takeWhile isDigit

def octal (cs : List Char) : Bytes × List Char :=
  let ds := digits 3 isOctal cs
  ([byte (Arithmetic.valueOf 8 ds)], cs.drop ds.length)

/-- What stands after a backslash, as bytes, and the text after it; no bytes if the text ends here.
An escape that is none stands for itself. -/
def read (known : Escapes) : List Char → Option Bytes × List Char
  | [] => (some [92], [])
  | c :: cs =>
    if c == '0' && known.longZero then
      let (data, rest) := octal cs
      (some data, rest)
    else if isOctal c then
      let (data, rest) := octal (c :: cs)
      (some data, rest)
    else if c == 'c' && known.stops then (none, cs)
    else if c == '"' && known.quote then (some [34], cs)
    else
      let ds := digits 2 Arithmetic.isHex cs
      if c == 'x' && known.hex && !ds.isEmpty then
        (some [byte (Arithmetic.valueOf 16 ds)], cs.drop ds.length)
      else
        match control? c with
        | some b => (some [b], cs)
        | none => (some (92 :: charBytes c), cs)

def bytesOf (known : Escapes) : Nat → List Char → Bytes × Bool
  | 0, _ => ([], false)
  | _ + 1, [] => ([], false)
  | n + 1, '\\' :: cs =>
    match read known cs with
    | (none, _) => ([], true)
    | (some data, rest) =>
      let (more, stopped) := bytesOf known n rest
      (data ++ more, stopped)
  | n + 1, c :: cs =>
    let (more, stopped) := bytesOf known n cs
    (charBytes c ++ more, stopped)

def bytes (known : Escapes) (text : String) : Bytes × Bool :=
  known.bytesOf (text.length + 1) text.toList

end Escapes
end BlockCanvas.Sandbox
