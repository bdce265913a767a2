import BlockCanvas.Bytes
import BlockCanvas.Text.Utf8

/-!
Archives of named entries, as zip files whose entries are stored without compression. A file is read
from the record at its end, through the directory that the record points to.
-/
namespace BlockCanvas.Zip
open Bytes

abbrev Archive := List (String × Bytes)

structure Codec where
  encode : Archive → Bytes
  decode? : Bytes → Option Archive

def checkBit (crc : Nat) : Nat :=
  if crc % 2 == 1 then Nat.xor (crc / 2) 0xEDB88320 else crc / 2

def checkByte (crc : Nat) (b : UInt8) : Nat :=
  (List.range 8).foldl (fun crc _ => checkBit crc) (Nat.xor crc b.toNat)

/-- The cyclic redundancy check that zip files carry. -/
def checksum (bytes : Bytes) : Nat :=
  Nat.xor (bytes.foldl checkByte 0xFFFFFFFF) 0xFFFFFFFF

def localSign : Bytes := [0x50, 0x4B, 0x03, 0x04]
def directorySign : Bytes := [0x50, 0x4B, 0x01, 0x02]
def endSign : Bytes := [0x50, 0x4B, 0x05, 0x06]

/-- What the header of an entry and its directory record have in common: the version needed, the
flag for UTF-8 names, no compression, the time stamp, the checksum, both sizes, the length of the
name, no extra field. -/
def commonFields (name data : Bytes) : Bytes :=
  lowFirst 20 2 ++ lowFirst 0x800 2 ++ lowFirst 0 2 ++ lowFirst 0 2 ++ lowFirst 0x21 2 ++
    lowFirst (checksum data) 4 ++ lowFirst data.length 4 ++ lowFirst data.length 4 ++
    lowFirst name.length 2 ++ lowFirst 0 2

def localEntry (name data : Bytes) : Bytes :=
  localSign ++ commonFields name data ++ name ++ data

def directoryEntry (name data : Bytes) (offset : Nat) : Bytes :=
  directorySign ++ lowFirst 20 2 ++ commonFields name data ++ lowFirst 0 2 ++ lowFirst 0 2 ++
    lowFirst 0 2 ++ lowFirst 0 4 ++ lowFirst offset 4 ++ name

def sections (offset : Nat) : Archive → Bytes × Bytes
  | [] => ([], [])
  | (name, data) :: rest =>
    let bytes := localEntry (Text.utf8 name) data
    let (entries, directory) := sections (offset + bytes.length) rest
    (bytes ++ entries, directoryEntry (Text.utf8 name) data offset ++ directory)

def encode (archive : Archive) : Bytes :=
  let (entries, directory) := sections 0 archive
  entries ++ directory ++ endSign ++ lowFirst 0 2 ++ lowFirst 0 2 ++ lowFirst archive.length 2 ++
    lowFirst archive.length 2 ++ lowFirst directory.length 4 ++ lowFirst entries.length 4 ++
    lowFirst 0 2

def dataAt? (file : Bytes) (offset size : Nat) : Option Bytes :=
  let header := file.drop offset
  if slice header 0 4 != localSign then none
  else
    let data := slice header (30 + fieldAt header 26 2 + fieldAt header 28 2) size
    if data.length == size then some data else none

def readDirectory (file : Bytes) : Nat → Bytes → Option Archive
  | 0, _ => some []
  | n + 1, record => do
    if slice record 0 4 != directorySign || fieldAt record 10 2 != 0 then none
    else
      let nameLength := fieldAt record 28 2
      let name ← Text.strict? (slice record 46 nameLength)
      let data ← dataAt? file (fieldAt record 42 4) (fieldAt record 20 4)
      if checksum data != fieldAt record 16 4 then none
      else
        let past := 46 + nameLength + fieldAt record 30 2 + fieldAt record 32 2
        let rest ← readDirectory file n (record.drop past)
        return (name, data) :: rest

/-- The last record that could end the file: its comment has to reach the end. -/
def endRecord? (found : Option Bytes) : Bytes → Option Bytes
  | [] => found
  | b :: bytes =>
    let here := b :: bytes
    if slice here 0 4 == endSign && here.length == 22 + fieldAt here 20 2 then endRecord? (some here) bytes
    else endRecord? found bytes

def decode? (file : Bytes) : Option Archive := do
  let record ← endRecord? none file
  readDirectory file (fieldAt record 10 2) (file.drop (fieldAt record 16 4))

def entry? (archive : Archive) (name : String) : Option Bytes :=
  archive.lookup name

end BlockCanvas.Zip
