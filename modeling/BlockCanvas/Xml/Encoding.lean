import BlockCanvas.Text.Utf8

/-!
The encodings of XML documents. A byte order mark decides, else the declaration may name one of the
encodings that agree on ASCII, else it is UTF-8.
-/
namespace BlockCanvas.Xml

inductive Encoding where
  | utf8
  | utf16
  | latin1
  | ascii
  deriving DecidableEq, Repr

def agree (label name : List Char) : Bool :=
  (label.zip name).all fun pair => pair.1 == pair.2.toLower

def Encoding.labels : List (String × Encoding) :=
  [("utf-8", .utf8), ("utf8", .utf8), ("iso-8859-1", .latin1), ("latin1", .latin1),
    ("utf-16", .utf16), ("utf16", .utf16), ("ascii", .ascii), ("us-ascii", .ascii)]

/-- The encoding of the first label that a name agrees with. A name may be cut short or go on. -/
def Encoding.ofName? (name : String) : Option Encoding :=
  (labels.find? fun entry => agree entry.1.toList name.toList).map Prod.snd

def byteChars (bytes : List UInt8) : List Char :=
  bytes.map fun b => Char.ofNat b.toNat

def units (bigEndian : Bool) : List UInt8 → Option (List Nat)
  | [] => some []
  | [_] => none
  | a :: b :: rest =>
    (units bigEndian rest).map fun us =>
      (if bigEndian then a.toNat * 256 + b.toNat else b.toNat * 256 + a.toNat) :: us

def joinUnits : List Nat → Option (List Char)
  | [] => some []
  | [u] => if 0xD800 ≤ u && u < 0xE000 then none else some [Char.ofNat u]
  | u :: v :: rest =>
    if 0xD800 ≤ u && u < 0xDC00 then
      if 0xDC00 ≤ v && v < 0xE000 then
        (joinUnits rest).map (Char.ofNat (0x10000 + (u - 0xD800) * 0x400 + (v - 0xDC00)) :: ·)
      else none
    else if 0xDC00 ≤ u && u < 0xE000 then none
    else (joinUnits (v :: rest)).map (Char.ofNat u :: ·)

def marked? : List UInt8 → Option (Encoding × Option (List Char))
  | 0xEF :: 0xBB :: 0xBF :: rest => some (.utf8, (Text.strict? rest).map String.toList)
  | 0xFE :: 0xFF :: rest => some (.utf16, (units true rest).bind joinUnits)
  | 0xFF :: 0xFE :: rest => some (.utf16, (units false rest).bind joinUnits)
  | _ => none

def Encoding.decode? : Encoding → List UInt8 → Option (List Char)
  | .utf8, bytes => (Text.strict? bytes).map String.toList
  | .latin1, bytes => some (byteChars bytes)
  | .ascii, bytes => if bytes.all fun b => b < 0x80 then some (byteChars bytes) else none
  | .utf16, _ => none

def validUtf8 (bytes : List UInt8) : List Char :=
  ((Text.decoded bytes).takeWhile Option.isSome).filterMap id

end BlockCanvas.Xml
