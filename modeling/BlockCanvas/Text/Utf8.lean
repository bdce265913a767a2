/-!
UTF-8. Text is decoded character by character; a byte sequence that is cut off or wrong is consumed
as far as it could have begun a character.
-/
namespace BlockCanvas.Text

def utf8 (s : String) : List UInt8 :=
  s.toUTF8.data.toList

def trailing? (lead : Nat) : Option (Nat × Nat × Nat) :=
  if 0xC2 ≤ lead && lead ≤ 0xDF then some (1, 0x80, 0xBF)
  else if lead == 0xE0 then some (2, 0xA0, 0xBF)
  else if lead == 0xED then some (2, 0x80, 0x9F)
  else if 0xE1 ≤ lead && lead ≤ 0xEF then some (2, 0x80, 0xBF)
  else if lead == 0xF0 then some (3, 0x90, 0xBF)
  else if 0xF1 ≤ lead && lead ≤ 0xF3 then some (3, 0x80, 0xBF)
  else if lead == 0xF4 then some (3, 0x80, 0x8F)
  else none

/-- Takes `n` continuation bytes, the first within the given range. The first part is the code point
when all were there; the second is what is left. -/
def takeTrailing : Nat → Nat → Nat → Nat → List UInt8 → Option Nat × List UInt8
  | 0, _, _, code, bytes => (some code, bytes)
  | _ + 1, _, _, _, [] => (none, [])
  | n + 1, low, high, code, b :: bytes =>
    if low ≤ b.toNat && b.toNat ≤ high then
      takeTrailing n 0x80 0xBF (code * 64 + b.toNat % 64) bytes
    else (none, b :: bytes)

def decodeOne (b : UInt8) (bytes : List UInt8) : Option Char × List UInt8 :=
  let lead := b.toNat
  if lead < 0x80 then (some (Char.ofNat lead), bytes)
  else
    match trailing? lead with
    | none => (none, bytes)
    | some (n, low, high) =>
      let bits := if n == 1 then lead % 32 else if n == 2 then lead % 16 else lead % 8
      let (code, rest) := takeTrailing n low high bits bytes
      (code.map Char.ofNat, rest)

def decodeAll : Nat → List (Option Char) → List UInt8 → List (Option Char)
  | 0, seen, _ => seen.reverse
  | _ + 1, seen, [] => seen.reverse
  | n + 1, seen, b :: bytes =>
    let (c, rest) := decodeOne b bytes
    decodeAll n (c :: seen) rest

def decoded (bytes : List UInt8) : List (Option Char) :=
  decodeAll (bytes.length + 1) [] bytes

def lossy (bytes : List UInt8) : String :=
  String.ofList ((decoded bytes).map fun c => c.getD '\ufffd')

def strict? (bytes : List UInt8) : Option String :=
  ((decoded bytes).mapM id).map String.ofList

end BlockCanvas.Text
