import BlockCanvas.Proofs.JsonCodec
import Mathlib.Algebra.Order.Field.Power
import Mathlib.Tactic.NormNum
import Mathlib.Tactic.Positivity
import Mathlib.Tactic.Ring

/-!
Doubles that are finite. Rounding a number that is less than the largest double does not give one that is too
large for JSON, so what is read from the text of such a number is a number again.
-/
namespace BlockCanvas.Binary
open Float.Model Float.Model.UnpackedFloat

/-- Zero, or less than `2 ^ 53` times a power of two that is at most `2 ^ e`. -/
def Fits (e : ℤ) : UnpackedFloat → Prop
  | .zero _ => True
  | .finite _ m q _ => m < 2 ^ 53 ∧ q ≤ e
  | _ => False

theorem Fits.mono {a b : ℤ} {u : UnpackedFloat} (h : Fits a u) (hab : a ≤ b) : Fits b u := by
  cases u with
  | infinity s => exact h
  | notANumber => exact h
  | zero s => exact h
  | finite s m q hm => exact ⟨h.1, h.2.trans hab⟩

/-! ### Rounding -/

theorem mantissa_shiftRight (em : ExtendedMantissa) (n : ℕ) : (em >>> n).mantissa = em.mantissa / 2 ^ n := by
  change (n.repeat ExtendedMantissa.shiftRightOne em).mantissa = _
  induction n with
  | zero => rw [Nat.repeat, pow_zero, Nat.div_one]
  | succ n ih =>
    rw [Nat.repeat, pow_succ, ← Nat.div_div_eq_div_mul, ← ih]
    rfl

theorem mantissa_ofMantissaAndAccuracy (m : ℕ) (acc : Accuracy) :
    (ExtendedMantissa.ofMantissaAndAccuracy m acc).mantissa = m := by
  rcases acc with _ | o
  · rfl
  · cases o <;> rfl

theorem roundedMantissa_le (em : ExtendedMantissa) : em.roundedMantissa ≤ em.mantissa + 1 := by
  rcases em with ⟨m, roundBit, stickyBit⟩
  cases roundBit <;> cases stickyBit <;>
    simp only [ExtendedMantissa.roundedMantissa, ExtendedMantissa.accuracy, Accuracy.roundToNearestEven] <;> omega

/-- The exponent that a number is moved to, no lower than its own. -/
def settledExponent (m : ℕ) (e : ℤ) : ℤ :=
  max e (Format.binary64.targetExponent (totalExponent m e))

theorem shiftToTargetExponent_eq (m : ℕ) (e : ℤ) (acc : Accuracy) :
    (shiftToTargetExponent .binary64 m e acc).2 = settledExponent m e ∧
      (shiftToTargetExponent .binary64 m e acc).1.mantissa = m / 2 ^ (settledExponent m e - e).toNat := by
  have hshift : (settledExponent m e - e).toNat =
      (Format.binary64.targetExponent (totalExponent m e) - e).toNat := by
    rw [settledExponent]
    omega
  simp only [shiftToTargetExponent, shiftToExponent, mantissa_shiftRight, mantissa_ofMantissaAndAccuracy,
    hshift, and_true]
  rw [settledExponent]
  omega

theorem targetExponent_eq (m : ℕ) (e : ℤ) :
    Format.binary64.targetExponent (totalExponent m e) = max ((m.log2 : ℤ) + 1 + e - 53) (-1074) :=
  rfl

theorem settledExponent_le {m : ℕ} {e bound : ℤ} (hbound : -1074 ≤ bound) (he : e ≤ bound)
    (hm : m < 2 ^ (53 + (bound - e).toNat)) : settledExponent m e ≤ bound := by
  have hlog : m.log2 < 53 + (bound - e).toNat := by
    by_cases hzero : m = 0
    · rw [hzero, Nat.log2_zero]
      omega
    · exact (Nat.log2_lt hzero).2 hm
  rw [settledExponent, targetExponent_eq]
  omega

theorem settled_lt (m : ℕ) (e : ℤ) : m / 2 ^ (settledExponent m e - e).toNat < 2 ^ 53 := by
  have hlog : m.log2 + 1 ≤ 53 + (settledExponent m e - e).toNat := by
    rw [settledExponent, targetExponent_eq]
    omega
  rw [Nat.div_lt_iff_lt_mul (Nat.two_pow_pos _), ← pow_add]
  exact Nat.lt_log2_self.trans_le (Nat.pow_le_pow_right two_pos hlog)

theorem roundWithAccuracy_fits {s : Sign} {m : ℕ} {e bound : ℤ} {acc : Accuracy} (hbound : -1074 ≤ bound)
    (he : e ≤ bound) (hm : m < (2 ^ 53 - 1) * 2 ^ (bound - e).toNat) :
    Fits bound (roundWithAccuracy .binary64 s m e acc) := by
  obtain ⟨hexponent, hmantissa⟩ := shiftToTargetExponent_eq m e acc
  generalize hfirst : shiftToTargetExponent .binary64 m e acc = first at hexponent hmantissa
  obtain ⟨em, q⟩ := first
  dsimp only at hexponent hmantissa
  have hq : q ≤ bound := by
    rw [hexponent]
    refine settledExponent_le hbound he (hm.trans_le ?_)
    rw [pow_add]
    exact Nat.mul_le_mul_right _ (by norm_num)
  have hsmall : em.mantissa < 2 ^ 53 := by
    rw [hmantissa]
    exact settled_lt m e
  -- rounding up carries only where there is room for it
  have hrounded : em.roundedMantissa < 2 ^ (53 + (bound - q).toNat) := by
    have hle := roundedMantissa_le em
    rcases eq_or_lt_of_le hq with rfl | hlt
    · have htop : em.mantissa < 2 ^ 53 - 1 := by
        rw [hmantissa, ← hexponent, Nat.div_lt_iff_lt_mul (Nat.two_pow_pos _)]
        exact hm
      rw [sub_self, Int.toNat_zero, Nat.add_zero]
      omega
    · have hroom : 2 ^ 54 ≤ 2 ^ (53 + (bound - q).toNat) := Nat.pow_le_pow_right two_pos (by omega)
      omega
  have hagain := settledExponent_le hbound hq hrounded
  obtain ⟨hexponent', hmantissa'⟩ := shiftToTargetExponent_eq em.roundedMantissa q .exact
  rw [roundWithAccuracy, hfirst]
  dsimp only
  by_cases hzero : (shiftToTargetExponent .binary64 em.roundedMantissa q .exact).1.mantissa = 0
  · rw [dif_pos hzero]
    trivial
  · rw [dif_neg hzero]
    exact ⟨hmantissa'.trans_lt (settled_lt _ _), hexponent'.trans_le hagain⟩

/-! ### The bits of a double -/

def biasedExponent (b : BitVec Format.binary64.numBits) : ℕ :=
  (unpackExponent b).toNat

theorem biasedExponent_eq (b : BitVec Format.binary64.numBits) :
    biasedExponent b = b.toNat / 2 ^ 52 % 2 ^ 11 := by
  simp [biasedExponent, unpackExponent, BitVec.extractLsb, BitVec.extractLsb', Nat.shiftRight_eq_div_pow]

theorem biasedExponent_lt (b : BitVec Format.binary64.numBits) : biasedExponent b < 2048 :=
  (unpackExponent b).isLt

theorem ofBits_isFinite_iff (bits : ℕ) : (ofBits bits).isFinite = true ↔ bits / 2 ^ 52 % 2 ^ 11 ≠ 2047 := by
  rw [ofBits]
  split_ifs <;> simp_all [isFinite]

theorem isFinite_ofFloat_iff (x : Float) :
    (ofFloat x).isFinite = true ↔ biasedExponent x.toBits.toBitVec ≠ 2047 := by
  rw [biasedExponent_eq]
  exact ofBits_isFinite_iff _

theorem exists_finite {x : Float} (h : (ofFloat x).isFinite = true) :
    ∃ negative m q, ofFloat x = .finite negative m q ∧ m < 2 ^ 53 ∧ q ≤ 971 := by
  rw [ofFloat] at h ⊢
  generalize x.toBits.toNat = bits at h ⊢
  have hbiased : bits / Nat.pow 2 52 % Nat.pow 2 11 ≠ 2047 := (ofBits_isFinite_iff bits).1 h
  have hrange : bits / Nat.pow 2 52 % Nat.pow 2 11 < 2048 := Nat.mod_lt _ (by norm_num)
  have hfraction : bits % Nat.pow 2 52 < 2 ^ 52 := Nat.mod_lt _ (by norm_num)
  rw [ofBits]
  generalize bits / Nat.pow 2 52 % Nat.pow 2 11 = biased at hbiased hrange
  by_cases hzero : biased = 0
  · simp only [hzero, beq_iff_eq, Nat.reduceEqDiff, if_false, if_true]
    exact ⟨_, _, _, rfl, by omega, by norm_num⟩
  · simp only [beq_iff_eq, hbiased, hzero, if_false]
    exact ⟨_, _, _, rfl, by change _ + 2 ^ 52 < _; omega, by omega⟩

variable {bound : ℤ} {u : UnpackedFloat}

theorem biasedExponent_pack_le (hlow : -1074 ≤ bound) (hhigh : bound ≤ 971) (h : Fits bound u) :
    (biasedExponent (UnpackedFloat.pack .binary64 u) : ℤ) ≤ bound + 1075 := by
  rw [biasedExponent]
  have hzero : ((0#11).toNat : ℤ) ≤ bound + 1075 := by
    rw [BitVec.toNat_zero]
    omega
  cases u with
  | infinity s => exact h.elim
  | notANumber => exact h.elim
  | zero s =>
    change ((unpackExponent (packComponents .binary64 s 0#11 0#52)).toNat : ℤ) ≤ bound + 1075
    rw [unpackExponent_packComponents]
    exact hzero
  | finite s m q hm =>
    obtain ⟨-, hq⟩ := h
    delta UnpackedFloat.pack
    dsimp only
    split_ifs with hover hnormal
    · have hlarge : 2048 ≤ (q + (1023 : ℕ) + (52 : ℕ)).toNat + 1 := hover
      omega
    · rw [unpackExponent_packComponents, BitVec.toNat_ofNat]
      have hbiased : (q + (1023 : ℕ) + (52 : ℕ)).toNat % 2048 ≤ bound + 1075 := by omega
      exact hbiased
    · rw [unpackExponent_packComponents]
      exact hzero

theorem fits_unpack {b : BitVec Format.binary64.numBits} (hlow : -1074 ≤ bound) (hhigh : bound ≤ 971)
    (h : (biasedExponent b : ℤ) ≤ bound + 1075) : Fits bound (UnpackedFloat.unpack .binary64 b) := by
  have hones : unpackExponent b ≠ -1#_ := by
    intro he
    have htop : biasedExponent b = 2047 := by rw [biasedExponent, he]; rfl
    omega
  delta UnpackedFloat.unpack
  dsimp only
  rw [if_neg hones]
  by_cases hsubnormal : unpackExponent b = 0#11
  · rw [if_pos hsubnormal]
    by_cases hzero : unpackMantissa b = 0#52
    · rw [dif_pos hzero]
      trivial
    · rw [dif_neg hzero, hsubnormal]
      refine ⟨(unpackMantissa b).isLt.trans (by decide), ?_⟩
      change (0 : ℤ) - (1023 + 52) + 1 ≤ bound
      omega
  · rw [if_neg hsubnormal]
    refine ⟨(1#1 ++ unpackMantissa b).isLt, ?_⟩
    change (biasedExponent b : ℤ) - (1023 + 52) ≤ bound
    omega

theorem fits_unpack_pack (hlow : -1074 ≤ bound) (hhigh : bound ≤ 971) (h : Fits bound u) :
    Fits bound (Float.Model.pack u).unpack :=
  fits_unpack hlow hhigh (biasedExponent_pack_le hlow hhigh h)

end BlockCanvas.Binary

namespace BlockCanvas.Json
open Binary Float.Model Float.Model.UnpackedFloat

theorem writes_of_finite {x : Float} {negative : Bool} {m : ℕ} {q : ℤ}
    (h : Binary.ofFloat x = .finite negative m q) : Writes x := by
  rw [Writes, h]
  rfl

theorem writes_pack {u : UnpackedFloat} (h : Fits 971 u) : Writes ⟨Float.Model.pack u⟩ := by
  refine (isFinite_ofFloat_iff _).2 fun htop => ?_
  have hle := biasedExponent_pack_le (by norm_num) le_rfl h
  change biasedExponent (UnpackedFloat.pack .binary64 u) = 2047 at htop
  omega

theorem Writes.fits {x : Float} (h : Writes x) : Fits 971 x.toModel.unpack := by
  have htop : biasedExponent x.toModel.toBits.toBitVec ≠ 2047 := (isFinite_ofFloat_iff x).1 h
  have hlt := biasedExponent_lt x.toModel.toBits.toBitVec
  exact fits_unpack (by norm_num) le_rfl (by omega)

theorem Writes.neg {x : Float} (h : Writes x) : Writes (-x) := by
  have hx := h.fits
  refine writes_pack (u := x.toModel.unpack.neg) ?_
  cases hu : x.toModel.unpack with
  | infinity s => exact (hu ▸ hx : Fits 971 (.infinity s)).elim
  | notANumber => exact (hu ▸ hx : Fits 971 .notANumber).elim
  | zero s => trivial
  | finite s m q hm => exact (hu ▸ hx : Fits 971 (.finite s m q hm))

end BlockCanvas.Json

namespace BlockCanvas.Binary
open Float.Model Float.Model.UnpackedFloat

variable {a b : ℤ} {u v : UnpackedFloat}

theorem mul_fits (hlow : -1128 ≤ a + b) (hu : Fits a u) (hv : Fits b v) :
    Fits (a + b + 54) (UnpackedFloat.mul .binary64 u v) := by
  cases u with
  | infinity s => exact hu.elim
  | notANumber => exact hu.elim
  | zero s => cases v <;> first | exact hv.elim | trivial
  | finite s₁ m₁ e₁ h₁ =>
    cases v with
    | infinity s => exact hv.elim
    | notANumber => exact hv.elim
    | zero s => trivial
    | finite s₂ m₂ e₂ h₂ =>
      obtain ⟨hm₁, he₁⟩ := hu
      obtain ⟨hm₂, he₂⟩ := hv
      refine roundWithAccuracy_fits (by omega) (by omega) ?_
      have hroom : 2 ^ 54 ≤ 2 ^ (a + b + 54 - (e₁ + e₂)).toNat := Nat.pow_le_pow_right two_pos (by omega)
      calc m₁ * m₂ < 2 ^ 53 * 2 ^ 53 := Nat.mul_lt_mul'' hm₁ hm₂
        _ ≤ (2 ^ 53 - 1) * 2 ^ 54 := by norm_num
        _ ≤ (2 ^ 53 - 1) * 2 ^ (a + b + 54 - (e₁ + e₂)).toNat := Nat.mul_le_mul_left _ hroom

theorem div_fits {s : Sign} {m : ℕ} {e : ℤ} {hm : 0 < m} (hlow : -1075 ≤ a - e) (hu : Fits a u) :
    Fits (a - e + 1) (UnpackedFloat.div .binary64 u (.finite s m e hm)) := by
  cases u with
  | infinity s => exact hu.elim
  | notANumber => exact hu.elim
  | zero s => trivial
  | finite s₁ m₁ e₁ h₁ =>
    obtain ⟨hm₁, he₁⟩ := hu
    delta UnpackedFloat.div divCore
    dsimp only
    generalize Format.binary64.targetExponent (totalExponent m₁ e₁ - totalExponent m e) = target
    refine roundWithAccuracy_fits (by omega) (by omega) ((Nat.div_le_self _ _).trans_lt ?_)
    have hroom : 2 * 2 ^ (e₁ - e - min (e₁ - e) target).toNat ≤ 2 ^ (a - e + 1 - min (e₁ - e) target).toNat := by
      rw [← pow_succ']
      exact Nat.pow_le_pow_right two_pos (by omega)
    rw [Nat.shiftLeft_eq]
    calc m₁ * 2 ^ (e₁ - e - min (e₁ - e) target).toNat
        < 2 ^ 53 * 2 ^ (e₁ - e - min (e₁ - e) target).toNat :=
          Nat.mul_lt_mul_of_pos_right hm₁ (Nat.two_pow_pos _)
      _ ≤ (2 ^ 53 - 1) * (2 * 2 ^ (e₁ - e - min (e₁ - e) target).toNat) := by omega
      _ ≤ (2 ^ 53 - 1) * 2 ^ (a - e + 1 - min (e₁ - e) target).toNat := Nat.mul_le_mul_left _ hroom

/-! ### Decimals -/

theorem round_fits {m : ℕ} (h : m < 2 ^ 64) : Fits 12 (UnpackedFloat.round .binary64 .positive m 0) := by
  simp only [UnpackedFloat.round, decreaseExponent]
  generalize (0 - Format.binary64.targetExponent (totalExponent m 0)).toNat = shift
  refine roundWithAccuracy_fits (by norm_num) (by omega) ?_
  have hshift : (12 - (0 - (shift : ℤ))).toNat = 12 + shift := by omega
  rw [hshift, Nat.shiftLeft_eq, pow_add, ← mul_assoc]
  exact Nat.mul_lt_mul_of_pos_right (h.trans (by norm_num)) (Nat.two_pow_pos _)

theorem ofUInt64_fits (n : UInt64) : Fits 12 (UnpackedFloat.ofUInt64 .binary64 n) := by
  have hn : n.toNat < 2 ^ 64 := n.toNat_lt
  rw [UnpackedFloat.ofUInt64, UnpackedFloat.ofNat, UnpackedFloat.ofInt, UnpackedFloat.normalize]
  split
  · next hlt => exact absurd (Int.compare_eq_lt.1 hlt) (by omega)
  · trivial
  · exact round_fits hn

def IsPower : UnpackedFloat → Prop
  | .finite _ m q _ => m < 2 ^ 53 ∧ -52 ≤ q ∧ q ≤ 22
  | _ => False

instance : DecidablePred IsPower
  | .finite .. => inferInstanceAs (Decidable (_ ∧ _))
  | .zero _ => inferInstanceAs (Decidable False)
  | .infinity _ => inferInstanceAs (Decidable False)
  | .notANumber => inferInstanceAs (Decidable False)

theorem isPower_table : ∀ e : Fin 23, IsPower Float.exactlyRepresentablePowersOfTen[e].toModel.unpack := by
  decide +kernel

def largest : ℕ :=
  (2 ^ 53 - 1) * 2 ^ 971

theorem ofScientific_fits {m : ℕ} {e : ℤ} (he : e ≤ 2048) (h : (m : ℚ) * 10 ^ e < largest) :
    Fits 971 (UnpackedFloat.ofScientific .binary64 m e) := by
  rw [UnpackedFloat.ofScientific]
  by_cases hzero : m = 0
  · rw [dif_pos hzero]
    trivial
  have hexponent : ¬e > 2 ^ Format.binary64.exponentBits := not_lt.2 he
  rw [dif_neg hzero, if_neg hexponent]
  by_cases hsmall : e < -(2 ^ Format.binary64.exponentBits + ↑m.log2)
  · rw [if_pos hsmall]
    trivial
  rw [if_neg hsmall]
  by_cases hsign : 0 ≤ e
  · -- a whole number, moved up by enough bits to be cut at the target exponent
    obtain ⟨k, rfl⟩ := Int.eq_ofNat_of_zero_le hsign
    rw [if_pos hsign]
    have hlt : m * 10 ^ k < largest := by
      rw [zpow_natCast] at h
      exact_mod_cast h
    rw [largest] at hlt
    refine roundWithAccuracy_fits (by norm_num) (by decide) ?_
    have hroom : (971 - (-(Format.binary64.mantissaBits : ℤ) + 0)).toNat =
        971 + Format.binary64.mantissaBits := rfl
    rw [hroom, Int.toNat_natCast, Nat.shiftLeft_eq]
    generalize Format.binary64.mantissaBits = shift
    calc m * 2 ^ shift * 10 ^ k = m * 10 ^ k * 2 ^ shift := Nat.mul_right_comm _ _ _
      _ < (2 ^ 53 - 1) * 2 ^ 971 * 2 ^ shift := Nat.mul_lt_mul_of_pos_right hlt (Nat.two_pow_pos _)
      _ = (2 ^ 53 - 1) * 2 ^ (971 + shift) := by rw [Nat.mul_assoc, ← pow_add]
  · obtain ⟨k, rfl⟩ := Int.exists_eq_neg_ofNat (not_le.1 hsign).le
    rw [if_neg hsign]
    -- a quotient, of which the rounding below sees the whole part and whether there is more
    have hlt : m < largest * 10 ^ k := by
      rw [zpow_neg, zpow_natCast, ← div_eq_mul_inv, div_lt_iff₀ (by positivity)] at h
      exact_mod_cast h
    rw [largest] at hlt
    delta UnpackedFloat.div divCore
    dsimp only
    generalize Format.binary64.targetExponent _ = target
    refine roundWithAccuracy_fits (by norm_num) (by omega) ?_
    have hpower : (- -(k : ℤ)).toNat = k := by omega
    have hroom : (971 - min (0 - 0) target).toNat = 971 + (0 - 0 - min (0 - 0) target).toNat := by omega
    rw [hpower, hroom, Nat.div_lt_iff_lt_mul (by positivity), Nat.shiftLeft_eq]
    generalize (0 - 0 - min (0 - 0) target).toNat = shift
    calc m * 2 ^ shift < (2 ^ 53 - 1) * 2 ^ 971 * 10 ^ k * 2 ^ shift :=
          Nat.mul_lt_mul_of_pos_right hlt (Nat.two_pow_pos _)
      _ = (2 ^ 53 - 1) * 2 ^ (971 + shift) * 10 ^ k := by
          rw [Nat.mul_right_comm, pow_add, ← Nat.mul_assoc]

theorem writes_ofScientific {m : ℕ} {negative : Bool} {e : ℕ} (he : negative = false → e ≤ 2048)
    (h : (m : ℚ) * 10 ^ (if negative then -(e : ℤ) else e) < largest) :
    Json.Writes (Float.ofScientific m negative e) := by
  rw [Float.ofScientific]
  split
  · next hfast =>
    -- few digits and a small power, so both are doubles and one operation rounds once
    have hn : Fits 12 m.toUInt64.toFloat.toModel.unpack :=
      fits_unpack_pack (by norm_num) (by norm_num) (ofUInt64_fits _)
    have he : e < Float.exactlyRepresentablePowersOfTen.size := Nat.lt_succ_of_le hfast.2
    have hpower : IsPower Float.exactlyRepresentablePowersOfTen[e].toModel.unpack :=
      isPower_table ⟨e, Nat.lt_succ_of_le hfast.2⟩
    generalize Float.exactlyRepresentablePowersOfTen[e] = power at hpower
    generalize m.toUInt64.toFloat = n at hn
    cases hp : power.toModel.unpack with
    | infinity s => exact (hp ▸ hpower : IsPower (.infinity s)).elim
    | notANumber => exact (hp ▸ hpower : IsPower .notANumber).elim
    | zero s => exact (hp ▸ hpower : IsPower (.zero s)).elim
    | finite s m' q hm' =>
      obtain ⟨hlt, hlow, hhigh⟩ : IsPower (.finite s m' q hm') := hp ▸ hpower
      cases negative with
      | true =>
        have hdiv : Fits (12 - q + 1) (UnpackedFloat.div .binary64 n.toModel.unpack power.toModel.unpack) :=
          hp ▸ div_fits (by omega) hn
        exact Json.writes_pack (hdiv.mono (by omega))
      | false =>
        have hfinite : Fits q power.toModel.unpack := hp ▸ (⟨hlt, le_rfl⟩ : Fits q (.finite s m' q hm'))
        have hmul := mul_fits (by omega) hn hfinite
        exact Json.writes_pack (hmul.mono (by omega))
  · cases negative with
    | false => exact Json.writes_pack (ofScientific_fits (by simpa using he rfl) h)
    | true =>
      have hslow : Fits 971 (UnpackedFloat.ofScientific .binary64 m (Int.negOfNat e)) := by
        have hneg : Int.negOfNat e = -(e : ℤ) := Int.negOfNat_eq
        rw [hneg]
        exact ofScientific_fits (by omega) h
      exact Json.writes_pack hslow

end BlockCanvas.Binary

namespace BlockCanvas.Decimal
open Binary

def value (d : Decimal) : ℚ :=
  d.significand * (10 : ℚ) ^ d.exponent

theorem length_digits_pos (d : Decimal) : 0 < d.digits.length :=
  Nat.length_toDigits_pos

theorem pow_le_significand {d : Decimal} (h : d.significand ≠ 0) :
    10 ^ (d.digits.length - 1) ≤ d.significand := by
  by_cases hone : d.digits.length = 1
  · rw [hone]
    exact Nat.one_le_iff_ne_zero.2 h
  · have hpos := d.length_digits_pos
    refine not_lt.1 fun hlt => ?_
    have hle := (Nat.length_toDigits_le_iff (b := 10) (by norm_num) (by omega)).2 hlt
    change d.digits.length ≤ d.digits.length - 1 at hle
    omega

theorem pow_le_value {d : Decimal} {k : ℕ} (h : d.significand ≠ 0) (hk : k < d.exponent + d.digits.length) :
    (10 : ℚ) ^ k ≤ d.value := by
  have hpos := d.length_digits_pos
  have hpow : ((10 : ℚ) ^ (d.digits.length - 1) : ℚ) ≤ d.significand := by exact_mod_cast pow_le_significand h
  calc (10 : ℚ) ^ k = 10 ^ (k : ℤ) := (zpow_natCast _ _).symm
    _ ≤ 10 ^ (((d.digits.length - 1 : ℕ) : ℤ) + d.exponent) := zpow_le_zpow_right₀ (by norm_num) (by omega)
    _ = 10 ^ (d.digits.length - 1) * 10 ^ d.exponent := by rw [zpow_add₀ (by norm_num), zpow_natCast]
    _ ≤ d.value := mul_le_mul_of_nonneg_right hpow (by positivity)

theorem largest_lt : (largest : ℚ) < 10 ^ 400 := by
  have hlt : largest < 10 ^ 400 := by decide +kernel
  exact_mod_cast hlt

theorem writes_toFloat {d : Decimal} (h : d.value < largest) : Json.Writes d.toFloat := by
  rw [toFloat]
  split_ifs with hzero hlarge hsmall
  · decide
  · have hne : d.significand ≠ 0 := by simpa using hzero
    exact absurd (h.trans largest_lt) (not_lt.2 (pow_le_value hne (by omega)))
  · decide
  · have hle : d.exponent ≤ 400 := by
      have hpos := d.length_digits_pos
      omega
    have hpositive : decide (d.exponent < 0) = false → d.exponent.natAbs ≤ 2048 := fun hsign => by
      have hle' := of_decide_eq_false hsign
      omega
    refine writes_ofScientific hpositive ?_
    have hexponent : (if decide (d.exponent < 0) = true then -(d.exponent.natAbs : ℤ) else d.exponent.natAbs) =
        d.exponent := by
      split <;> grind
    rw [hexponent]
    exact h

end BlockCanvas.Decimal

namespace BlockCanvas.Json
open Binary

theorem writes_ofNat {n : ℕ} (h : n ≤ 2 ^ 64) : Writes (Float.ofNat n) := by
  have hlt : n < largest := h.trans_lt (by decide +kernel)
  refine writes_ofScientific (fun _ => Nat.zero_le _) ?_
  rw [if_neg Bool.false_ne_true, Nat.cast_zero, zpow_zero, mul_one]
  exact_mod_cast hlt

theorem writes_ofInt {n : ℤ} (h : n.natAbs ≤ 2 ^ 64) : Writes (Float.ofInt n) := by
  cases n with
  | ofNat n => exact writes_ofNat h
  | negSucc n => exact (writes_ofNat h).neg

end BlockCanvas.Json
