import BlockCanvas.Bytes
import BlockCanvas.Text.Utf8

/-!
The MD5 digest of a text, as hexadecimal digits. Bytes are padded to whole blocks of 64 and each
block stirs a state of four words through 64 steps.
-/
namespace BlockCanvas.Digest

structure State where
  a : UInt32
  b : UInt32
  c : UInt32
  d : UInt32

def start : State :=
  ⟨0x67452301, 0xefcdab89, 0x98badcfe, 0x10325476⟩

def sines : List UInt32 := [
  0xd76aa478, 0xe8c7b756, 0x242070db, 0xc1bdceee, 0xf57c0faf, 0x4787c62a, 0xa8304613, 0xfd469501,
  0x698098d8, 0x8b44f7af, 0xffff5bb1, 0x895cd7be, 0x6b901122, 0xfd987193, 0xa679438e, 0x49b40821,
  0xf61e2562, 0xc040b340, 0x265e5a51, 0xe9b6c7aa, 0xd62f105d, 0x02441453, 0xd8a1e681, 0xe7d3fbc8,
  0x21e1cde6, 0xc33707d6, 0xf4d50d87, 0x455a14ed, 0xa9e3e905, 0xfcefa3f8, 0x676f02d9, 0x8d2a4c8a,
  0xfffa3942, 0x8771f681, 0x6d9d6122, 0xfde5380c, 0xa4beea44, 0x4bdecfa9, 0xf6bb4b60, 0xbebfbc70,
  0x289b7ec6, 0xeaa127fa, 0xd4ef3085, 0x04881d05, 0xd9d4d039, 0xe6db99e5, 0x1fa27cf8, 0xc4ac5665,
  0xf4292244, 0x432aff97, 0xab9423a7, 0xfc93a039, 0x655b59c3, 0x8f0ccc92, 0xffeff47d, 0x85845dd1,
  0x6fa87e4f, 0xfe2ce6e0, 0xa3014314, 0x4e0811a1, 0xf7537e82, 0xbd3af235, 0x2ad7d2bb, 0xeb86d391]

def rotations : List (List UInt32) :=
  [[7, 12, 17, 22], [5, 9, 14, 20], [4, 11, 16, 23], [6, 10, 15, 21]]

def rotateLeft (x n : UInt32) : UInt32 :=
  (x <<< n) ||| (x >>> (32 - n))

def mix (i : Nat) (s : State) : UInt32 × Nat :=
  if i < 16 then ((s.b &&& s.c) ||| ((~~~s.b) &&& s.d), i)
  else if i < 32 then ((s.d &&& s.b) ||| ((~~~s.d) &&& s.c), (5 * i + 1) % 16)
  else if i < 48 then (s.b ^^^ s.c ^^^ s.d, (3 * i + 5) % 16)
  else (s.c ^^^ (s.b ||| ~~~s.d), (7 * i) % 16)

def step (words : List UInt32) (s : State) (i : Nat) (sine : UInt32) : State :=
  let (f, g) := mix i s
  let turn := ((rotations.getD (i / 16) []).getD (i % 4) 0)
  let sum := s.a + f + sine + words.getD g 0
  ⟨s.d, s.b + rotateLeft sum turn, s.b, s.c⟩

def wordsOf : List UInt8 → List UInt32
  | a :: b :: c :: d :: rest =>
    (a.toUInt32 ||| b.toUInt32 <<< 8 ||| c.toUInt32 <<< 16 ||| d.toUInt32 <<< 24) :: wordsOf rest
  | _ => []

def stir (s : State) (block : List UInt8) : State :=
  let words := wordsOf block
  let t := sines.zipIdx.foldl (fun t k => step words t k.2 k.1) s
  ⟨s.a + t.a, s.b + t.b, s.c + t.c, s.d + t.d⟩

def padded (bytes : List UInt8) : List UInt8 :=
  let n := bytes.length
  bytes ++ 0x80 :: List.replicate ((119 - n % 64) % 64) 0 ++ Bytes.lowFirst (8 * n) 8

def stirAll : Nat → State → List UInt8 → State
  | 0, s, _ => s
  | n + 1, s, bytes => stirAll n (stir s (bytes.take 64)) (bytes.drop 64)

def hex (b : UInt8) : List Char :=
  let ds := Nat.toDigits 16 b.toNat
  if b < 16 then '0' :: ds else ds

def ofBytes (bytes : List UInt8) : String :=
  let blocks := padded bytes
  let s := stirAll (blocks.length / 64) start blocks
  String.ofList ([s.a, s.b, s.c, s.d].flatMap fun w => (Bytes.lowFirst w.toNat 4).flatMap hex)

def ofText (s : String) : String :=
  ofBytes (Text.utf8 s)

end BlockCanvas.Digest
