import BlockCanvas.Json.Parser
import BlockCanvas.Proofs.Doubles
import BlockCanvas.Proofs.Trimming
import Mathlib.Tactic.Linarith

/-!
The text of a double is a JSON number, and what is read from it is finite again: the shortest decimal of a
double is less than the next one above it, and is written with a point or a power of ten, so that it is never
taken for a whole number.
-/
namespace BlockCanvas.Binary

/-! ### The shortest decimal -/

theorem le_of_compareScaled {a b : ℕ} {p e : ℤ} (h : compareScaled a p b e ≠ .gt) :
    (a : ℚ) * 10 ^ p ≤ b * 2 ^ e := by
  have hle : a * 10 ^ p.toNat * 2 ^ (-e).toNat ≤ b * 2 ^ e.toNat * 10 ^ (-p).toNat :=
    Nat.compare_ne_gt.1 h
  have hcast : (a : ℚ) * 10 ^ p.toNat * 2 ^ (-e).toNat ≤ b * 2 ^ e.toNat * 10 ^ (-p).toNat := by
    exact_mod_cast hle
  have hsplit : ∀ {base : ℚ} (k : ℤ), 0 < base → base ^ k.toNat = base ^ k * base ^ (-k).toNat := by
    intro base k hbase
    rw [← zpow_natCast, ← zpow_natCast, ← zpow_add₀ hbase.ne']
    congr 1
    omega
  rw [hsplit p (by norm_num), hsplit e (by norm_num)] at hcast
  have hpos : (0 : ℚ) < 10 ^ (-p).toNat * 2 ^ (-e).toNat := by positivity
  refine le_of_mul_le_mul_right ?_ hpos
  calc (a : ℚ) * 10 ^ p * (10 ^ (-p).toNat * 2 ^ (-e).toNat)
      = a * (10 ^ p * 10 ^ (-p).toNat) * 2 ^ (-e).toNat := by ring
    _ ≤ b * (2 ^ e * 2 ^ (-e).toNat) * 10 ^ (-p).toNat := hcast
    _ = b * 2 ^ e * (10 ^ (-p).toNat * 2 ^ (-e).toNat) := by ring

theorem value_le_of_roundsTo {m : ℕ} {q : ℤ} {d : Decimal} (h : roundsTo m q d.significand d.exponent = true) :
    d.value ≤ ((4 * m + 2 : ℕ) : ℚ) * 2 ^ (q - 2) := by
  refine le_of_compareScaled fun hgt => ?_
  simp [roundsTo, hgt] at h

theorem roundsTo_of_pick {tie : Tie} {m : ℕ} {q p : ℤ} {d : Decimal} (h : pick tie m q p = some d) :
    roundsTo m q d.significand d.exponent = true := by
  rw [pick] at h
  split at h
  · next hfloor hnext =>
    obtain rfl := Option.some.inj h
    dsimp only [nearer]
    split
    · exact hfloor
    · exact hnext
    · split
      · exact hnext
      · exact hfloor
  · next hfloor _ =>
    obtain rfl := Option.some.inj h
    exact hfloor
  · next hnext =>
    obtain rfl := Option.some.inj h
    exact hnext
  · cases h

theorem value_strip (n : ℕ) (d : Decimal) : (d.strip n).value = d.value := by
  induction n generalizing d with
  | zero => rfl
  | succ n ih =>
    rw [Decimal.strip]
    split
    · next hzero =>
      have hmod : d.significand % 10 = 0 := by simp_all
      have hten : (d.significand : ℚ) = (d.significand / 10 : ℕ) * 10 := by
        exact_mod_cast (Nat.div_mul_cancel (Nat.dvd_of_mod_eq_zero hmod)).symm
      rw [ih, Decimal.value, Decimal.value, hten, zpow_add₀ (by norm_num), zpow_one]
      ring
    · rfl

theorem value_shortest_le (tie : Tie) (m : ℕ) (q : ℤ) :
    (shortest tie m q).value ≤ ((4 * m + 2 : ℕ) : ℚ) * 2 ^ (q - 2) := by
  rw [shortest, value_strip]
  cases hfound : (List.range 17).findSome? fun (k : ℕ) => pick tie m q (decimalLog m q - k) with
  | none =>
    rw [Option.getD_none, Decimal.value, Nat.cast_zero, zero_mul]
    positivity
  | some d =>
    obtain ⟨k, -, hpick⟩ := List.exists_of_findSome?_eq_some hfound
    exact value_le_of_roundsTo (roundsTo_of_pick hpick)

theorem significand_ne_zero_of_roundsTo {m c : ℕ} {q p : ℤ} (hm : m ≠ 0) (h : roundsTo m q c p = true) : c ≠ 0 := by
  rintro rfl
  have hlow : ∀ below ≤ 2, compareScaled 0 p (4 * m - below) (q - 2) = .lt := by
    intro below hbelow
    have hpos : 0 < (4 * m - below) * Nat.pow 2 (q - 2).toNat * Nat.pow 10 (-p).toNat :=
      Nat.mul_pos (Nat.mul_pos (by omega) (Nat.pow_pos two_pos)) (Nat.pow_pos (by norm_num))
    rw [compareScaled, Nat.zero_mul, Nat.zero_mul]
    exact Nat.compare_eq_lt.2 hpos
  rw [roundsTo] at h
  have hbelow : (if m == Nat.pow 2 52 && q > -1074 then 1 else 2) ≤ 2 := by split <;> omega
  simp only [hlow _ hbelow] at h
  simp at h

theorem exponent_shortest {tie : Tie} {m : ℕ} {q : ℤ} (hm : m ≠ 0) (h : (shortest tie m q).significand = 0) :
    (shortest tie m q).exponent = 0 := by
  have hvalue : (shortest tie m q).value = 0 := by rw [Decimal.value, h, Nat.cast_zero, zero_mul]
  rw [shortest] at hvalue ⊢
  cases hfound : (List.range 17).findSome? fun (k : ℕ) => pick tie m q (decimalLog m q - k) with
  | none => rfl
  | some d =>
    obtain ⟨k, -, hpick⟩ := List.exists_of_findSome?_eq_some hfound
    have hne := significand_ne_zero_of_roundsTo hm (roundsTo_of_pick hpick)
    have hpos : d.value ≠ 0 := mul_ne_zero (by exact_mod_cast hne) (by positivity)
    rw [hfound, Option.getD_some, value_strip] at hvalue
    exact absurd hvalue hpos

theorem cast_largest : (largest : ℚ) = ((4 * (2 ^ 53 - 1) : ℕ) : ℚ) * 2 ^ (969 : ℤ) := by
  have hnat : largest = 4 * (2 ^ 53 - 1) * 2 ^ 969 := by decide +kernel
  rw [hnat, Nat.cast_mul, Nat.cast_pow, Nat.cast_ofNat]
  rfl

/-- Half a unit above a double is less than the largest one, but for the largest one itself. -/
theorem half_above_lt {m : ℕ} {q : ℤ} (hm : m < 2 ^ 53) (hq : q ≤ 971) (htop : ¬(m = 2 ^ 53 - 1 ∧ q = 971)) :
    ((4 * m + 2 : ℕ) : ℚ) * 2 ^ (q - 2) < largest := by
  rw [cast_largest]
  rcases hq.eq_or_lt with rfl | hlt
  · have hsmall : 4 * m + 2 < 4 * (2 ^ 53 - 1) := by omega
    exact mul_lt_mul_of_pos_right (by exact_mod_cast hsmall) (by positivity)
  · have hsmall : 4 * m + 2 < 2 * (4 * (2 ^ 53 - 1)) := by omega
    calc ((4 * m + 2 : ℕ) : ℚ) * 2 ^ (q - 2) ≤ ((4 * m + 2 : ℕ) : ℚ) * 2 ^ (968 : ℤ) :=
          mul_le_mul_of_nonneg_left (zpow_le_zpow_right₀ (by norm_num) (by omega)) (by positivity)
      _ < ((2 * (4 * (2 ^ 53 - 1)) : ℕ) : ℚ) * 2 ^ (968 : ℤ) :=
          mul_lt_mul_of_pos_right (by exact_mod_cast hsmall) (by positivity)
      _ = ((4 * (2 ^ 53 - 1) : ℕ) : ℚ) * 2 ^ (969 : ℤ) := by
          rw [Nat.cast_mul, mul_comm ((2 : ℕ) : ℚ), mul_assoc, Nat.cast_ofNat, ← zpow_one_add₀ (by norm_num)]
          rfl

theorem value_shortest_lt {m : ℕ} {q : ℤ} (hm : m < 2 ^ 53) (hq : q ≤ 971) :
    (shortest .even m q).value < largest := by
  by_cases htop : m = 2 ^ 53 - 1 ∧ q = 971
  · obtain ⟨rfl, rfl⟩ := htop
    have hshortest : shortest .even (2 ^ 53 - 1) 971 = ⟨17976931348623157, 292⟩ := by decide +kernel
    have hlt : 17976931348623157 * 10 ^ 292 < largest := by decide +kernel
    have hcast : ((17976931348623157 * 10 ^ 292 : ℕ) : ℚ) < largest := Nat.cast_lt.2 hlt
    rw [Nat.cast_mul, Nat.cast_pow, Nat.cast_ofNat, Nat.cast_ofNat] at hcast
    rw [hshortest, Decimal.value, zpow_ofNat]
    exact hcast
  · exact (value_shortest_le .even m q).trans_lt (half_above_lt hm hq htop)

end BlockCanvas.Binary

namespace BlockCanvas.Decimal

/-! ### Numbers as they are spelled -/

structure Numeral where
  whole : List Char
  fraction : List Char
  power : Option ℤ

namespace Numeral

def point (fraction : List Char) : List Char :=
  if fraction.isEmpty then [] else '.' :: fraction

def powerText : Option ℤ → List Char
  | none => []
  | some e => 'e' :: (if e < 0 then '-' else '+') :: Nat.toDigits 10 e.natAbs

def tail (n : Numeral) : List Char :=
  point n.fraction ++ powerText n.power

def text (n : Numeral) : List Char :=
  n.whole ++ n.tail

def decimal (n : Numeral) : Decimal :=
  ⟨natOf (n.whole ++ n.fraction), n.power.getD 0 - n.fraction.length⟩

structure Proper (n : Numeral) : Prop where
  whole : n.whole ≠ []
  digits : ∀ c ∈ n.whole ++ n.fraction, asciiDigit c = true
  lead : n.whole.head? = some '0' → n.whole = ['0']

end Numeral

theorem asciiDigit_of_mem_toDigits {n : ℕ} {c : Char} (h : c ∈ Nat.toDigits 10 n) : asciiDigit c = true :=
  Nat.isDigit_of_mem_toDigits (by norm_num) le_rfl h

theorem natOf_toDigits (n : ℕ) : natOf (Nat.toDigits 10 n) = n :=
  Nat.ofDigitChars_ten_toDigits

theorem natOf_append_zeros (ds : List Char) (n : ℕ) : natOf (ds ++ zeros n) = natOf ds * 10 ^ n := by
  induction n with
  | zero => simp [zeros]
  | succ n ih =>
    rw [zeros, List.replicate_succ', ← List.append_assoc, natOf, List.foldl_append]
    change 10 * natOf (ds ++ zeros n) + 0 = _
    rw [ih, pow_succ]
    ring

theorem natOf_zeros_append (n : ℕ) (ds : List Char) : natOf (zeros n ++ ds) = natOf ds := by
  induction n with
  | zero => rfl
  | succ n ih =>
    rw [zeros, List.replicate_succ]
    exact ih

theorem head?_toDigits {n : ℕ} (h : n ≠ 0) : (Nat.toDigits 10 n).head? ≠ some '0' := by
  induction n using Nat.strong_induction_on with
  | h n ih =>
    rw [Nat.toDigits_eq_if (by norm_num)]
    split
    · next hlt =>
      have hone : ∀ n < 10, n ≠ 0 → [n.digitChar].head? ≠ some '0' := by decide
      exact hone n hlt h
    · next hle =>
      have hquotient := ih (n / 10) (by omega) (by omega)
      rwa [List.head?_append_of_ne_nil _ Nat.toDigits_ne_nil]

theorem significand_eq_zero {d : Decimal} (h : d.digits.head? = some '0') : d.significand = 0 :=
  by_contra fun hne => head?_toDigits hne h

def numeral (d : Decimal) : Numeral :=
  if -5 ≤ d.magnitude && d.magnitude ≤ 15 then
    match d.exponent with
    | .ofNat e => ⟨d.digits ++ zeros e, ['0'], none⟩
    | .negSucc e =>
      if d.digits.length > e + 1 then
        ⟨d.digits.take (d.digits.length - (e + 1)), d.digits.drop (d.digits.length - (e + 1)), none⟩
      else ⟨['0'], zeros (e + 1 - d.digits.length) ++ d.digits, none⟩
  else ⟨d.digits.take 1, d.digits.drop 1, some d.magnitude⟩

theorem point_of_ne_nil {fraction : List Char} (h : fraction ≠ []) : Numeral.point fraction = '.' :: fraction :=
  if_neg (by simpa using h)

theorem text_numeral (d : Decimal) : d.numeral.text = d.mixed := by
  rw [numeral, mixed]
  split
  · cases hexponent : d.exponent with
    | ofNat e => simp [Numeral.text, Numeral.tail, Numeral.point, Numeral.powerText, positional, hexponent]
    | negSucc e =>
      rw [if_pos (Int.negSucc_lt_zero e), positional, hexponent]
      dsimp only
      split
      · next hlong =>
        have hdrop : d.digits.drop (d.digits.length - (e + 1)) ≠ [] := by
          rw [← List.length_pos_iff, List.length_drop]
          omega
        simp [Numeral.text, Numeral.tail, Numeral.powerText, point_of_ne_nil hdrop]
      · have hne : zeros (e + 1 - d.digits.length) ++ d.digits ≠ [] :=
          List.append_ne_nil_of_right_ne_nil _ Nat.toDigits_ne_nil
        simp [Numeral.text, Numeral.tail, Numeral.powerText, point_of_ne_nil hne]
  · obtain ⟨c, ds, hdigits⟩ := List.exists_cons_of_ne_nil (show d.digits ≠ [] from Nat.toDigits_ne_nil)
    rw [scientific, hdigits]
    cases ds <;> simp [Numeral.text, Numeral.tail, Numeral.powerText, Numeral.point]

variable {d : Decimal}

theorem digits_ne_nil (d : Decimal) : d.digits ≠ [] :=
  Nat.toDigits_ne_nil

theorem asciiDigit_of_mem_zeros {n : ℕ} {c : Char} (h : c ∈ zeros n) : asciiDigit c = true := by
  rw [List.eq_of_mem_replicate h]
  rfl

theorem proper_numeral (hzero : d.significand = 0 → d.exponent = 0) : d.numeral.Proper := by
  have hdigits : ∀ c ∈ d.digits, asciiDigit c = true := fun _ => asciiDigit_of_mem_toDigits
  rw [numeral]
  split
  · cases hexponent : d.exponent with
    | ofNat e =>
      refine ⟨List.append_ne_nil_of_left_ne_nil d.digits_ne_nil _, fun c hc => ?_, fun hhead => ?_⟩
      · rcases List.mem_append.1 hc with hc | hc
        · exact (List.mem_append.1 hc).elim (hdigits c) asciiDigit_of_mem_zeros
        · rw [List.mem_singleton.1 hc]
          rfl
      · rw [List.head?_append_of_ne_nil _ d.digits_ne_nil] at hhead
        have hnone := significand_eq_zero hhead
        obtain rfl : e = 0 := by simpa [hexponent] using hzero hnone
        rw [digits, hnone]
        rfl
    | negSucc e =>
      dsimp only
      split
      · next hlong =>
        obtain ⟨k, hk⟩ : ∃ k, d.digits.length - (e + 1) = k + 1 := ⟨d.digits.length - (e + 1) - 1, by omega⟩
        rw [hk]
        refine ⟨?_, fun c hc => hdigits c (by rwa [List.take_append_drop] at hc), fun hhead => ?_⟩
        · simpa using d.digits_ne_nil
        · rw [List.head?_take, if_neg (by omega)] at hhead
          simp [hexponent] at hzero
          exact absurd (significand_eq_zero hhead) hzero
      · refine ⟨List.cons_ne_nil _ _, fun c hc => ?_, fun _ => rfl⟩
        rcases List.mem_append.1 hc with hc | hc
        · rw [List.mem_singleton.1 hc]
          rfl
        · exact (List.mem_append.1 hc).elim asciiDigit_of_mem_zeros (hdigits c)
  · obtain ⟨c, ds, hcons⟩ := List.exists_cons_of_ne_nil d.digits_ne_nil
    refine ⟨?_, fun c hc => hdigits c (by rwa [List.take_append_drop] at hc), fun hhead => ?_⟩
    · simpa using d.digits_ne_nil
    · rw [hcons] at hhead ⊢
      simpa using hhead

theorem marked_numeral (d : Decimal) : d.numeral.fraction ≠ [] ∨ d.numeral.power ≠ none := by
  rw [numeral]
  split
  · refine Or.inl ?_
    cases d.exponent with
    | ofNat e => exact List.cons_ne_nil _ _
    | negSucc e =>
      dsimp only
      split
      · next hlong =>
        rw [← List.length_pos_iff, List.length_drop]
        omega
      · exact List.append_ne_nil_of_right_ne_nil _ d.digits_ne_nil
  · exact Or.inr (Option.some_ne_none _)

theorem value_numeral (d : Decimal) : d.numeral.decimal.value = d.value := by
  have hdigits : natOf d.digits = d.significand := natOf_toDigits _
  rw [numeral]
  split
  · cases hexponent : d.exponent with
    | ofNat e =>
      -- zeros up to the point, and one more behind it that a power of ten takes back
      have hvalue : natOf ((d.digits ++ zeros e) ++ zeros 1) = d.significand * 10 ^ e * 10 := by
        rw [natOf_append_zeros, natOf_append_zeros, hdigits, pow_one]
      have hpower : (10 : ℚ) * 10 ^ (0 - ((['0'].length : ℕ) : ℤ)) = 1 := by norm_num
      calc ((natOf ((d.digits ++ zeros e) ++ zeros 1) : ℕ) : ℚ) * 10 ^ (0 - ((['0'].length : ℕ) : ℤ))
          = d.significand * 10 ^ e * (10 * 10 ^ (0 - ((['0'].length : ℕ) : ℤ))) := by
            rw [hvalue]
            push_cast
            ring
        _ = d.value := by rw [hpower, mul_one, value, hexponent, Int.ofNat_eq_natCast, zpow_natCast]
    | negSucc e =>
      dsimp only
      split
      · next hlong =>
        -- the point falls among the digits
        have hlength : (d.digits.drop (d.digits.length - (e + 1))).length = e + 1 := by
          rw [List.length_drop]
          omega
        rw [Numeral.decimal, value, value, hexponent, List.take_append_drop, hdigits, hlength]
        rfl
      · next hshort =>
        -- zeros stand between the point and the digits
        have hlength : (zeros (e + 1 - d.digits.length) ++ d.digits).length = e + 1 := by
          rw [List.length_append, zeros, List.length_replicate]
          omega
        have hvalue : natOf ('0' :: (zeros (e + 1 - d.digits.length) ++ d.digits)) = d.significand :=
          (natOf_zeros_append _ _).trans hdigits
        rw [Numeral.decimal, value, value, hexponent, List.singleton_append, hvalue, hlength]
        rfl
  · -- one digit before the point and a power of ten
    have hpos := d.length_digits_pos
    have hpower : d.magnitude - ((d.digits.drop 1).length : ℤ) = d.exponent := by
      rw [magnitude, List.length_drop]
      omega
    rw [Numeral.decimal, value, value, List.take_append_drop, hdigits]
    exact congrArg _ (congrArg _ hpower)

end BlockCanvas.Decimal

namespace BlockCanvas.Json
open Decimal

/-! ### Reading a number -/

def Stops (rest : List Char) : Prop :=
  ∀ c ∈ rest.head?, ¬asciiDigit c = true ∧ c ≠ '.' ∧ c ≠ 'e' ∧ c ≠ 'E'

def readFraction : List Char → List Char × Bool × List Char
  | '.' :: r => (r.takeWhile asciiDigit, true, r.dropWhile asciiDigit)
  | r => ([], false, r)

def readPower : List Char → Option (Option ℤ × List Char)
  | c :: r =>
    if c == 'e' || c == 'E' then
      let (negative, ds) : Bool × List Char := match r with
        | '-' :: ds => (true, ds)
        | '+' :: ds => (false, ds)
        | ds => (false, ds)
      let digits := ds.takeWhile asciiDigit
      if digits.isEmpty then none
      else
        let e : ℤ := if negative then -(natOf digits : ℤ) else natOf digits
        some (some e, ds.dropWhile asciiDigit)
    else some (none, c :: r)
  | [] => some (none, [])

theorem readNumber_eq (negative : Bool) (whole rest : List Char) :
    readNumber negative whole rest =
      match readPower (readFraction rest).2.2 with
      | none => none
      | some (e?, tail) =>
        if (readFraction rest).2.1 && (readFraction rest).1.isEmpty then none
        else if whole.isEmpty || (whole.head? == some '0' && whole.length > 1) then none
        else if !(readFraction rest).2.1 && e?.isNone && !negative && natOf whole < Nat.pow 2 64 then
          some (.int (natOf whole), tail)
        else if !(readFraction rest).2.1 && e?.isNone && negative && 0 < natOf whole && natOf whole ≤ Nat.pow 2 63 then
          some (.int (-(natOf whole)), tail)
        else
          let x := (⟨natOf (whole ++ (readFraction rest).1), e?.getD 0 - (readFraction rest).1.length⟩ : Decimal).toFloat
          match Binary.ofFloat x with
          | .finite .. => some (.real (if negative then -x else x), tail)
          | _ => none := by
  rfl

theorem readFraction_point {fraction rest : List Char} (hdigits : ∀ c ∈ fraction, asciiDigit c = true)
    (hrest : ∀ c ∈ rest.head?, ¬asciiDigit c = true ∧ c ≠ '.') :
    readFraction (Numeral.point fraction ++ rest) = (fraction, !fraction.isEmpty, rest) := by
  cases fraction with
  | nil =>
    cases rest with
    | nil => rfl
    | cons c rest =>
      have hpoint : c ≠ '.' := (hrest c rfl).2
      simp [Numeral.point, readFraction, hpoint]
  | cons d fraction =>
    obtain ⟨htake, hdrop⟩ := Text.takeWhile_dropWhile hdigits fun c hc => (hrest c hc).1
    simp only [Numeral.point, List.isEmpty_cons, Bool.false_eq_true, if_false, List.cons_append, readFraction,
      Bool.not_false] at htake hdrop ⊢
    rw [htake, hdrop]

theorem readPower_powerText {rest : List Char} (power : Option ℤ) (hrest : Stops rest) :
    readPower (Numeral.powerText power ++ rest) = some (power, rest) := by
  cases power with
  | none =>
    cases rest with
    | nil => rfl
    | cons c rest =>
      obtain ⟨-, -, he, hE⟩ := hrest c rfl
      simp [Numeral.powerText, readPower, he, hE]
  | some e =>
    obtain ⟨htake, hdrop⟩ := Text.takeWhile_dropWhile
      (fun c hc => asciiDigit_of_mem_toDigits (n := e.natAbs) hc) fun c hc => (hrest c hc).1
    by_cases hsign : e < 0
    · simp [Numeral.powerText, readPower, hsign, htake, hdrop, natOf_toDigits, Nat.toDigits_ne_nil,
        abs_of_neg hsign]
    · simp [Numeral.powerText, readPower, hsign, htake, hdrop, natOf_toDigits, Nat.toDigits_ne_nil,
        abs_of_nonneg (not_lt.1 hsign)]

theorem head?_powerText {rest : List Char} (power : Option ℤ) (hrest : Stops rest) :
    ∀ c ∈ (Numeral.powerText power ++ rest).head?, ¬asciiDigit c = true ∧ c ≠ '.' := by
  cases power with
  | none => exact fun c hc => ⟨(hrest c hc).1, (hrest c hc).2.1⟩
  | some e =>
    intro c hc
    obtain rfl := Option.some.inj hc
    decide

variable {negative : Bool} {rest : List Char}

theorem readNumber_numeral {n : Numeral} (h : n.Proper) (hrest : Stops rest) :
    readNumber negative n.whole (n.tail ++ rest) =
      if (n.fraction.isEmpty && n.power.isNone && !negative && natOf n.whole < Nat.pow 2 64) = true then
        some (.int (natOf n.whole), rest)
      else if (n.fraction.isEmpty && n.power.isNone && negative && 0 < natOf n.whole &&
          natOf n.whole ≤ Nat.pow 2 63) = true then
        some (.int (-natOf n.whole), rest)
      else
        match Binary.ofFloat n.decimal.toFloat with
        | .finite .. => some (.real (if negative then -n.decimal.toFloat else n.decimal.toFloat), rest)
        | _ => none := by
  have hfraction := readFraction_point (fun c hc => h.digits c (List.mem_append_right _ hc))
    (head?_powerText n.power hrest)
  have hlead : (n.whole.isEmpty || (n.whole.head? == some '0' && decide (n.whole.length > 1))) = false := by
    have hne := List.isEmpty_eq_false_iff.2 h.whole
    by_cases hzero : n.whole.head? = some '0'
    · simp [h.lead hzero]
    · simp [hne, hzero]
  rw [readNumber_eq, Numeral.tail, List.append_assoc, hfraction, readPower_powerText n.power hrest]
  simp only [hlead, Bool.not_not, Bool.not_and_self, Bool.false_eq_true, if_false]
  rfl

theorem readNumber_real {n : Numeral} (h : n.Proper) (hmarked : n.fraction ≠ [] ∨ n.power ≠ none)
    (hrest : Stops rest) (hfinite : Writes n.decimal.toFloat) :
    readNumber negative n.whole (n.tail ++ rest) =
      some (.real (if negative then -n.decimal.toFloat else n.decimal.toFloat), rest) := by
  have hmark : (n.fraction.isEmpty && n.power.isNone) = false := by
    rcases hmarked with hmarked | hmarked
    · simp [hmarked]
    · simp [Option.isSome_iff_ne_none.2 hmarked]
  obtain ⟨s, m, q, hx, -⟩ := Binary.exists_finite hfinite
  rw [readNumber_numeral h hrest]
  simp only [hmark, Bool.false_and, Bool.false_eq_true, if_false]
  rw [hx]

theorem head?_tail (n : Numeral) (hrest : Stops rest) : ∀ c ∈ (n.tail ++ rest).head?, ¬asciiDigit c = true := by
  intro c hc
  rw [Numeral.tail, List.append_assoc] at hc
  cases hfraction : n.fraction with
  | nil =>
    rw [hfraction] at hc
    exact (head?_powerText n.power hrest c hc).1
  | cons d fraction =>
    rw [hfraction] at hc
    obtain rfl := Option.some.inj hc
    decide

theorem readScalar_digit {c : Char} (hc : asciiDigit c = true) (cs : List Char) :
    readScalar (c :: cs) =
      readNumber false ((c :: cs).takeWhile asciiDigit) ((c :: cs).dropWhile asciiDigit) := by
  unfold readScalar
  split <;> first | rfl | (rename_i heq; obtain rfl := (List.cons.inj heq).1; exact absurd hc (by decide))

theorem readScalar_number {n : Numeral} (h : n.Proper) (hrest : Stops rest) :
    readScalar (Binary.sign negative ++ n.text ++ rest) = readNumber negative n.whole (n.tail ++ rest) := by
  have hwhole : ∀ c ∈ n.whole, asciiDigit c = true := fun c hc => h.digits c (List.mem_append_left _ hc)
  obtain ⟨htake, hdrop⟩ := Text.takeWhile_dropWhile hwhole (head?_tail n hrest)
  rw [Numeral.text, List.append_assoc, List.append_assoc]
  cases negative with
  | true =>
    change readNumber true ((n.whole ++ (n.tail ++ rest)).takeWhile asciiDigit)
      ((n.whole ++ (n.tail ++ rest)).dropWhile asciiDigit) = _
    rw [htake, hdrop]
  | false =>
    obtain ⟨c, cs, hcons⟩ := List.exists_cons_of_ne_nil h.whole
    have hc : asciiDigit c = true := hwhole c (hcons ▸ List.mem_cons_self)
    have hread := readScalar_digit hc (cs ++ (n.tail ++ rest))
    rw [← List.cons_append, ← hcons, htake, hdrop] at hread
    exact hread

/-! ### Reading back -/

def wholeNumeral (k : ℕ) : Numeral :=
  ⟨Nat.toDigits 10 k, [], none⟩

theorem proper_wholeNumeral (k : ℕ) : (wholeNumeral k).Proper where
  whole := Nat.toDigits_ne_nil
  digits c hc := asciiDigit_of_mem_toDigits (by simpa [wholeNumeral] using hc)
  lead hhead := by
    obtain rfl : k = 0 := by_contra fun hne => head?_toDigits hne hhead
    rfl

theorem text_wholeNumeral (k : ℕ) : (wholeNumeral k).text = Nat.toDigits 10 k := by
  simp [Numeral.text, Numeral.tail, Numeral.point, Numeral.powerText, wholeNumeral]

theorem toList_int (n : ℤ) :
    (scalar (.int n)).toList = Binary.sign (n < 0) ++ (wholeNumeral n.natAbs).text := by
  rw [text_wholeNumeral, scalar, Int.toString_eq_repr]
  cases n with
  | ofNat k =>
    change k.repr.toList = Binary.sign (Int.ofNat k < 0) ++ Nat.toDigits 10 k
    simp [Binary.sign]
  | negSucc k =>
    change ("-" ++ (k + 1).repr).toList = Binary.sign (Int.negSucc k < 0) ++ Nat.toDigits 10 (k + 1)
    simp [Binary.sign]

theorem readScalar_int {n : ℤ} (hlow : -2 ^ 63 ≤ n) (hhigh : n < 2 ^ 64) (hrest : Stops rest) :
    readScalar ((scalar (.int n)).toList ++ rest) = some (.int n, rest) := by
  have hproper := proper_wholeNumeral n.natAbs
  have hvalue : natOf (wholeNumeral n.natAbs).whole = n.natAbs := natOf_toDigits _
  rw [toList_int, readScalar_number hproper hrest, readNumber_numeral hproper hrest, hvalue]
  by_cases hsign : n < 0
  · have hpos : 0 < n.natAbs := by omega
    have hle : n.natAbs ≤ Nat.pow 2 63 := by change n.natAbs ≤ 2 ^ 63; omega
    simp [wholeNumeral, hsign, hpos, hle, abs_of_neg hsign]
  · have hlt : n.natAbs < Nat.pow 2 64 := by change n.natAbs < 2 ^ 64; omega
    simp [wholeNumeral, hsign, hlt, abs_of_nonneg (not_lt.1 hsign)]

end BlockCanvas.Json

namespace BlockCanvas.Binary

def decimal (m : ℕ) (q : ℤ) : Decimal :=
  if m = 0 then ⟨0, 0⟩ else shortest .even m q

theorem json?_finite (negative : Bool) (m : ℕ) (q : ℤ) :
    (finite negative m q).json? = some (String.ofList (sign negative ++ (decimal m q).mixed)) := by
  rw [json?, decimal]
  by_cases hzero : m = 0
  · simp [hzero]
    decide
  · simp [hzero]

theorem exponent_decimal {m : ℕ} {q : ℤ} (h : (decimal m q).significand = 0) : (decimal m q).exponent = 0 := by
  rw [decimal] at h ⊢
  split at h
  · next hm => rw [if_pos hm]
  · next hm =>
    rw [if_neg hm]
    exact exponent_shortest hm h

theorem value_decimal_lt {m : ℕ} {q : ℤ} (hm : m < 2 ^ 53) (hq : q ≤ 971) : (decimal m q).value < largest := by
  rw [decimal]
  split
  · have hpos : 0 < largest := by decide +kernel
    rw [Decimal.value, Nat.cast_zero, zero_mul]
    exact_mod_cast hpos
  · exact value_shortest_lt hm hq

end BlockCanvas.Binary

namespace BlockCanvas.Json

/-- The double that the text of a double is read as. -/
def returned (x : Float) : Float :=
  match Binary.ofFloat x with
  | .finite negative m q =>
    let y := (Binary.decimal m q).numeral.decimal.toFloat
    if negative then -y else y
  | _ => x

theorem writes_returned {x : Float} (h : Writes x) : Writes (returned x) := by
  obtain ⟨negative, m, q, hx, hm, hq⟩ := Binary.exists_finite h
  have hy : Writes (Binary.decimal m q).numeral.decimal.toFloat :=
    Decimal.writes_toFloat (by rw [Decimal.value_numeral]; exact Binary.value_decimal_lt hm hq)
  rw [returned, hx]
  cases negative with
  | true => exact hy.neg
  | false => exact hy

theorem toList_real {x : Float} {negative : Bool} {m : ℕ} {q : ℤ}
    (hx : Binary.ofFloat x = .finite negative m q) :
    (scalar (.real x)).toList = Binary.sign negative ++ (Binary.decimal m q).numeral.text := by
  rw [scalar, hx, Binary.json?_finite, Option.getD_some, String.toList_ofList, Decimal.text_numeral]

theorem readScalar_real {x : Float} {rest : List Char} (h : Writes x) (hrest : Stops rest) :
    readScalar ((scalar (.real x)).toList ++ rest) = some (.real (returned x), rest) := by
  obtain ⟨negative, m, q, hx, hm, hq⟩ := Binary.exists_finite h
  have hy : Writes (Binary.decimal m q).numeral.decimal.toFloat :=
    Decimal.writes_toFloat (by rw [Decimal.value_numeral]; exact Binary.value_decimal_lt hm hq)
  have hproper := Decimal.proper_numeral (Binary.exponent_decimal (m := m) (q := q))
  rw [toList_real hx, readScalar_number hproper hrest,
    readNumber_real hproper (Decimal.marked_numeral _) hrest hy, returned, hx]

end BlockCanvas.Json
