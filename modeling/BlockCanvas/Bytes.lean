/-!
Lists of bytes, and the numbers that they hold with the lowest byte first.
-/
namespace BlockCanvas

abbrev Bytes := List UInt8

namespace Bytes

def lowFirst (n : Nat) : Nat → Bytes
  | 0 => []
  | k + 1 => UInt8.ofNat (n % 256) :: lowFirst (n / 256) k

def numberOf : Bytes → Nat
  | [] => 0
  | b :: bytes => b.toNat + 256 * numberOf bytes

def slice (bytes : Bytes) (start length : Nat) : Bytes :=
  (bytes.drop start).take length

def fieldAt (bytes : Bytes) (start length : Nat) : Nat :=
  numberOf (slice bytes start length)

end Bytes
end BlockCanvas
