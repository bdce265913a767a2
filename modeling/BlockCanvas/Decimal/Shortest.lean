/-!
The fewest decimal digits that read back to the same double. A double is taken apart into `m * 2^q`,
and the decimals that round to it form an interval around it whose ends count when `m` is even. For
one, two, … seventeen digits the two neighbours of the value on that decimal grid are tried in exact
arithmetic; the first grid with a hit wins, and of two hits the nearer.
-/
namespace BlockCanvas

structure Decimal where
  significand : Nat
  exponent : Int
  deriving Repr, DecidableEq, Inhabited

namespace Decimal

def digits (d : Decimal) : List Char :=
  Nat.toDigits 10 d.significand

def strip : Nat → Decimal → Decimal
  | 0, d => d
  | n + 1, d =>
    if d.significand != 0 && d.significand % 10 == 0 then
      strip n ⟨d.significand / 10, d.exponent + 1⟩
    else d

end Decimal

inductive Binary where
  | nan
  | infinite (negative : Bool)
  | finite (negative : Bool) (m : Nat) (q : Int)
  deriving Repr, DecidableEq

namespace Binary

def ofBits (bits : Nat) : Binary :=
  let negative := bits / Nat.pow 2 63 % 2 == 1
  let biased : Nat := bits / Nat.pow 2 52 % Nat.pow 2 11
  let fraction : Nat := bits % Nat.pow 2 52
  if biased == 2047 then
    if fraction == 0 then .infinite negative else .nan
  else if biased == 0 then .finite negative fraction (-1074)
  else .finite negative (fraction + Nat.pow 2 52) ((biased : Int) - 1075)

def ofFloat (x : Float) : Binary :=
  ofBits x.toBits.toNat

def compareScaled (a : Nat) (p : Int) (b : Nat) (e : Int) : Ordering :=
  compare (a * Nat.pow 10 p.toNat * Nat.pow 2 (-e).toNat)
    (b * Nat.pow 2 e.toNat * Nat.pow 10 (-p).toNat)

/-- The largest `l` with `10 ^ l ≤ m * 2 ^ q`, for `m` positive. -/
def decimalLog (m : Nat) (q : Int) : Int :=
  let guess : Int :=
    (Nat.toDigits 10 (m * Nat.pow 2 q.toNat)).length - (Nat.toDigits 10 (Nat.pow 2 (-q).toNat)).length
  if compareScaled 1 guess m q == .gt then guess - 1 else guess

/-- Whether `c * 10 ^ p` rounds to `m * 2 ^ q`. Just above a power of two the doubles below are
twice as dense. -/
def roundsTo (m : Nat) (q : Int) (c : Nat) (p : Int) : Bool :=
  let below := if m == Nat.pow 2 52 && q > -1074 then 1 else 2
  let low := compareScaled c p (4 * m - below) (q - 2)
  let high := compareScaled c p (4 * m + 2) (q - 2)
  (low == .gt || (low == .eq && m % 2 == 0)) && (high == .lt || (high == .eq && m % 2 == 0))

inductive Tie where
  | up
  | even
  deriving DecidableEq, Repr

def nearer (tie : Tie) (floor : Nat) (midpoint : Ordering) : Nat :=
  match midpoint with
  | .gt => floor
  | .lt => floor + 1
  | .eq => if tie == .up || floor % 2 == 1 then floor + 1 else floor

def pick (tie : Tie) (m : Nat) (q : Int) (p : Int) : Option Decimal :=
  let floor := m * Nat.pow 2 q.toNat * Nat.pow 10 (-p).toNat /
    (Nat.pow 10 p.toNat * Nat.pow 2 (-q).toNat)
  match roundsTo m q floor p, roundsTo m q (floor + 1) p with
  | true, true => some ⟨nearer tie floor (compareScaled (2 * floor + 1) p (2 * m) q), p⟩
  | true, false => some ⟨floor, p⟩
  | false, true => some ⟨floor + 1, p⟩
  | false, false => none

def shortest (tie : Tie) (m : Nat) (q : Int) : Decimal :=
  let log := decimalLog m q
  let found := (List.range 17).findSome? fun (k : Nat) => pick tie m q (log - k)
  (found.getD ⟨0, 0⟩).strip 18

end Binary

end BlockCanvas
