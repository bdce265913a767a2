import BlockCanvas.Digest
import BlockCanvas.Sandbox.Tool.Copy

/-!
Programs that show bytes as numbers or letters.
-/
namespace BlockCanvas.Sandbox.Tool
open Host

def hexDigits (b : UInt8) : List Char :=
  let ds := Nat.toDigits 16 b.toNat
  List.replicate (2 - ds.length) '0' ++ ds

/-! ## Dumps -/

structure DumpFormat where
  bytes : Nat
  width : Nat
  text : Nat → String

def padLeft (width : Nat) (fill : Char) (cs : List Char) : String :=
  String.ofList (List.replicate (width - cs.length) fill ++ cs)

def inBase (base width : Nat) (n : Nat) : String :=
  padLeft width '0' (Nat.toDigits base n)

def charText (n : Nat) : String :=
  match n with
  | 0 => "\\0"
  | 7 => "\\a"
  | 8 => "\\b"
  | 9 => "\\t"
  | 10 => "\\n"
  | 11 => "\\v"
  | 12 => "\\f"
  | 13 => "\\r"
  | _ => if 32 ≤ n && n < 127 then String.singleton (Char.ofNat n) else inBase 8 3 n

def charNames : List String :=
  ["nul", "soh", "stx", "etx", "eot", "enq", "ack", "bel", "bs", "ht", "nl", "vt", "ff", "cr", "so",
    "si", "dle", "dc1", "dc2", "dc3", "dc4", "nak", "syn", "etb", "can", "em", "sub", "esc", "fs",
    "gs", "rs", "us", "sp"]

def nameText (n : Nat) : String :=
  let n := n % 128
  if n == 127 then "del"
  else (charNames[n]?).getD (String.singleton (Char.ofNat n))

def signedText (bytes n : Nat) : String :=
  toString (if 2 * n < Nat.pow 256 bytes then (n : Int) else (n : Int) - Int.pow 256 bytes)

def digitsFor (base bytes : Nat) : Nat :=
  (Nat.toDigits base (Nat.pow 256 bytes - 1)).length

def dumpFormat? (text : String) : Option DumpFormat :=
  match text.toList with
  | [] => none
  | letter :: size =>
    let bytes? : Option Nat := match String.ofList size with
      | "" => some 4
      | "C" => some 1
      | "S" => some 2
      | "I" => some 4
      | "L" => some 8
      | text => text.toNat?
    bytes?.bind fun bytes =>
      match letter with
      | 'x' => some ⟨bytes, digitsFor 16 bytes, inBase 16 (digitsFor 16 bytes)⟩
      | 'o' => some ⟨bytes, digitsFor 8 bytes, inBase 8 (digitsFor 8 bytes)⟩
      | 'u' => some ⟨bytes, digitsFor 10 bytes, toString⟩
      | 'd' => some ⟨bytes, digitsFor 10 bytes + 1, signedText bytes⟩
      | 'c' => some ⟨1, 3, charText⟩
      | 'a' => some ⟨1, 3, nameText⟩
      | _ => none

def unitValue (data : Bytes) : Nat :=
  data.foldr (fun b n => b.toNat + 256 * n) 0

def chunks (size : Nat) : Nat → Bytes → List Bytes
  | 0, _ => []
  | n + 1, data =>
    if data.isEmpty then [] else data.take size :: chunks size n (data.drop size)

def dumpLine (f : DumpFormat) (line : Bytes) : String :=
  String.join ((chunks f.bytes (line.length + 1) line).map fun unit =>
    " " ++ padLeft f.width ' ' (f.text (unitValue unit)).toList)

def dumpLines (address : Nat → Option String) (formats : List DumpFormat) (width : Nat)
    (all : Bool) : Nat → Option Bytes → Bool → Nat → Bytes → List String
  | 0, _, _, _, _ => []
  | n + 1, before, starred, offset, data =>
    if data.isEmpty then (address offset).toList
    else
      let line := data.take width
      let go := dumpLines address formats width all n (some line)
      let rest := data.drop width
      if before == some line && !all && line.length == width then
        (if starred then [] else ["*"]) ++ go true (offset + line.length) rest
      else
        let widest := (formats.map fun f => (f.width + 1) * (width / f.bytes)).foldl max 0
        let shown := formats.zipIdx.map fun (f, i) =>
          let here := (address offset).getD ""
          let lead := if i == 0 then here else String.ofList (List.replicate here.length ' ')
          let per := widest / (width / f.bytes)
          lead ++ dumpLine { f with width := per - 1 } line
        shown ++ go false (offset + line.length) rest

def od : Tool := fun s args =>
  withOptions { plain := "abcdosxv", valued := "AtjNwS" } 1 s args fun found operands =>
    let formats := found.filterMap fun (letter, value) =>
      match letter with
      | 't' => dumpFormat? value
      | 'a' => dumpFormat? "a"
      | 'b' => some ⟨1, 3, inBase 8 3⟩
      | 'c' => dumpFormat? "c"
      | 'd' => dumpFormat? "u2"
      | 'o' => dumpFormat? "o2"
      | 's' => dumpFormat? "d2"
      | 'x' => dumpFormat? "x2"
      | _ => none
    let formats := if formats.isEmpty then (dumpFormat? "o2").toList else formats
    let address (n : Nat) : Option String := match value? found 'A' with
      | some "n" => none
      | some "d" => some (inBase 10 7 n)
      | some "x" => some (inBase 16 6 n)
      | _ => some (inBase 8 7 n)
    let amount (letter : Char) : Option Nat := (value? found letter).bind sized?
    let width := (amount 'w').getD 16
    let w := eachInput s plainly operands fun w _ flow => w.print flow
    if w.status != 0 && w.out.isEmpty then w
    else w.mapOut fun flow =>
      let flow := match amount 'N' with
        | some n => (flow.cut (n + (amount 'j').getD 0)).1
        | none => flow
      flow.whole fun data =>
        let data := data.drop ((amount 'j').getD 0)
        Text.utf8 (String.join ((dumpLines address formats width (has found 'v') (data.length + 1) none
          false ((amount 'j').getD 0) data).map (· ++ "\n")))

/-! ## Letters for bits -/

def base64Letters : List Char :=
  "ABCDEFGHIJKLMNOPQRSTUVWXYZabcdefghijklmnopqrstuvwxyz0123456789+/".toList

def base64Text : Bytes → List Char
  | [] => []
  | [a] => letters (a.toNat * 65536) 2 ++ ['=', '=']
  | [a, b] => letters (a.toNat * 65536 + b.toNat * 256) 3 ++ ['=']
  | a :: b :: c :: rest => letters (a.toNat * 65536 + b.toNat * 256 + c.toNat) 4 ++ base64Text rest
where
  letters (n count : Nat) : List Char :=
    ([n / 262144, n / 4096 % 64, n / 64 % 64, n % 64].take count).map fun i =>
      (base64Letters[i]?).getD 'A'

def base64Bytes : List Char → Bytes
  | a :: b :: c :: d :: rest =>
    let value (x : Char) : Option Nat := base64Letters.findIdx? (· == x)
    match value a, value b, value c, value d with
    | some i, some j, some k, some l =>
      let n := ((i * 64 + j) * 64 + k) * 64 + l
      [UInt8.ofNat (n / 65536), UInt8.ofNat (n / 256 % 256), UInt8.ofNat (n % 256)] ++ base64Bytes rest
    | some i, some j, some k, none =>
      let n := (i * 64 + j) * 64 + k
      [UInt8.ofNat (n / 1024), UInt8.ofNat (n / 4 % 256)]
    | some i, some j, none, _ => [UInt8.ofNat (i * 4 + j / 16)]
    | _, _, _, _ => []
  | _ => []

def base64 : Tool := fun s args =>
  withOptions { plain := "di", valued := "w", long := [("decode", 'd'), ("wrap", 'w')] } 1 s args
    fun found operands =>
      filtered s operands fun data =>
        if has found 'd' then
          base64Bytes ((data.filter (· != 10)).map fun b => Char.ofNat b.toNat)
        else
          let width := ((value? found 'w').bind String.toNat?).getD 76
          let cs := Text.utf8 (String.ofList (base64Text data))
          if width == 0 then cs else ((chunks width (cs.length + 1) cs).map ended).flatten

/-! ## Checksums -/

def md5sum : Tool := fun s args =>
  withOptions { plain := "btz" } 1 s args fun _ operands =>
    eachInput s plainly operands fun w name flow =>
      match flow.all? with
      | some data => w.printText (Digest.ofBytes data ++ "  " ++ name ++ "\n")
      | none => w.print ⟨[], .silent⟩

end BlockCanvas.Sandbox.Tool
