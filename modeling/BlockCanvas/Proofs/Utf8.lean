import BlockCanvas.Text.Utf8
import Mathlib.Tactic.SplitIfs

/-!
Text that is written as UTF-8 is read back. The encoder has a form for each size of a character, and each
form is one case of the decoder.
-/
namespace BlockCanvas.Text

theorem utf8_eq (s : String) : utf8 s = s.toList.flatMap String.utf8EncodeChar := by
  have hs : s.toUTF8 = (s.toList.flatMap String.utf8EncodeChar).toByteArray := by
    have h := String.toByteArray_ofList (l := s.toList)
    rwa [String.ofList_toList] at h
  rw [utf8, hs, List.data_toByteArray]

/-! ### One character -/

theorem toNat_byte {x : Nat} (h : x < 256) : (UInt8.ofNat x).toNat = x := by
  rw [UInt8.toNat_ofNat', Nat.mod_eq_of_lt h]

theorem takeTrailing_succ {n low high code x : Nat} {bytes : List UInt8} (hx : x < 256)
    (hlow : low ≤ x) (hhigh : x ≤ high) :
    takeTrailing (n + 1) low high code (UInt8.ofNat x :: bytes) =
      takeTrailing n 0x80 0xBF (code * 64 + x % 64) bytes := by
  rw [takeTrailing, toNat_byte hx, if_pos (by simp [hlow, hhigh])]

theorem decodeOne_one {code : Nat} (h : code < 0x80) (rest : List UInt8) :
    decodeOne (UInt8.ofNat code) rest = (some (Char.ofNat code), rest) := by
  rw [decodeOne, toNat_byte (by omega), if_pos h]

theorem decodeOne_two {lead second : Nat} (hlead : 0xC2 ≤ lead ∧ lead ≤ 0xDF)
    (hsecond : 0x80 ≤ second ∧ second ≤ 0xBF) (rest : List UInt8) :
    decodeOne (UInt8.ofNat lead) (UInt8.ofNat second :: rest) =
      (some (Char.ofNat (lead % 32 * 64 + second % 64)), rest) := by
  have ht : trailing? lead = some (1, 0x80, 0xBF) := by
    rw [trailing?, if_pos (by simp [hlead])]
  simp only [decodeOne, toNat_byte (by omega : lead < 256), ht]
  rw [if_neg (by omega), takeTrailing_succ (by omega) hsecond.1 hsecond.2]
  rfl

/-- A lead byte of three may narrow the range of the second. -/
theorem decodeOne_three {lead second third : Nat} (hlead : 0xE0 ≤ lead ∧ lead ≤ 0xEF)
    (hsecond : 0x80 ≤ second ∧ second ≤ 0xBF) (hshort : lead = 0xE0 → 0xA0 ≤ second)
    (hsurrogate : lead = 0xED → second ≤ 0x9F) (hthird : 0x80 ≤ third ∧ third ≤ 0xBF)
    (rest : List UInt8) :
    decodeOne (UInt8.ofNat lead) (UInt8.ofNat second :: UInt8.ofNat third :: rest) =
      (some (Char.ofNat ((lead % 16 * 64 + second % 64) * 64 + third % 64)), rest) := by
  obtain ⟨low, high, ht, hlow, hhigh⟩ :
      ∃ low high, trailing? lead = some (2, low, high) ∧ low ≤ second ∧ second ≤ high := by
    rcases (by omega : lead = 0xE0 ∨ lead = 0xED ∨ (lead ≠ 0xE0 ∧ lead ≠ 0xED)) with rfl | rfl | hne
    · exact ⟨_, _, rfl, hshort rfl, hsecond.2⟩
    · exact ⟨_, _, rfl, hsecond.1, hsurrogate rfl⟩
    · refine ⟨0x80, 0xBF, ?_, hsecond.1, hsecond.2⟩
      have hlow : ¬ lead ≤ 0xDF := by omega
      have hmid : 0xE1 ≤ lead := by omega
      simp [trailing?, hne, hlow, hmid, hlead.2]
  simp only [decodeOne, toNat_byte (by omega : lead < 256), ht]
  rw [if_neg (by omega), takeTrailing_succ (by omega) hlow hhigh,
    takeTrailing_succ (by omega) hthird.1 hthird.2]
  rfl

theorem decodeOne_four {lead second third fourth : Nat} (hlead : 0xF0 ≤ lead ∧ lead ≤ 0xF4)
    (hsecond : 0x80 ≤ second ∧ second ≤ 0xBF) (hshort : lead = 0xF0 → 0x90 ≤ second)
    (hlast : lead = 0xF4 → second ≤ 0x8F) (hthird : 0x80 ≤ third ∧ third ≤ 0xBF)
    (hfourth : 0x80 ≤ fourth ∧ fourth ≤ 0xBF) (rest : List UInt8) :
    decodeOne (UInt8.ofNat lead)
        (UInt8.ofNat second :: UInt8.ofNat third :: UInt8.ofNat fourth :: rest) =
      (some (Char.ofNat (((lead % 8 * 64 + second % 64) * 64 + third % 64) * 64 + fourth % 64)),
        rest) := by
  obtain ⟨low, high, ht, hlow, hhigh⟩ :
      ∃ low high, trailing? lead = some (3, low, high) ∧ low ≤ second ∧ second ≤ high := by
    rcases (by omega : lead = 0xF0 ∨ lead = 0xF4 ∨ (0xF1 ≤ lead ∧ lead ≤ 0xF3)) with rfl | rfl | hmid
    · exact ⟨_, _, rfl, hshort rfl, hsecond.2⟩
    · exact ⟨_, _, rfl, hsecond.1, hlast rfl⟩
    · refine ⟨0x80, 0xBF, ?_, hsecond.1, hsecond.2⟩
      have hlow : ¬ lead ≤ 0xDF := by omega
      have hthree : ¬ lead ≤ 0xEF := by omega
      have hE0 : lead ≠ 0xE0 := by omega
      have hED : lead ≠ 0xED := by omega
      have hF0 : lead ≠ 0xF0 := by omega
      simp [trailing?, hlow, hthree, hE0, hED, hF0, hmid]
  simp only [decodeOne, toNat_byte (by omega : lead < 256), ht]
  rw [if_neg (by omega), takeTrailing_succ (by omega) hlow hhigh,
    takeTrailing_succ (by omega) hthird.1 hthird.2, takeTrailing_succ (by omega) hfourth.1 hfourth.2]
  rfl

theorem exists_decodeOne (c : Char) :
    ∃ b bytes, String.utf8EncodeChar c = b :: bytes ∧
      ∀ rest, decodeOne b (bytes ++ rest) = (some c, rest) := by
  have hvalid : c.toNat < 0xD800 ∨ (0xDFFF < c.toNat ∧ c.toNat < 0x110000) := c.valid
  have hchar : Char.ofNat c.toNat = c := Char.ofNat_toNat c
  have hcode : c.val.toNat = c.toNat := rfl
  generalize c.toNat = v at hvalid hchar hcode
  simp only [String.utf8EncodeChar, hcode]
  split_ifs with h₁ h₂ h₃
  · refine ⟨_, _, rfl, fun rest => ?_⟩
    exact (decodeOne_one (by omega) rest).trans (by rw [hchar])
  · refine ⟨_, _, rfl, fun rest => (decodeOne_two (by omega) (by omega) rest).trans ?_⟩
    have hv : (v / 64 % 32 + 192) % 32 * 64 + (v % 64 + 128) % 64 = v := by omega
    rw [hv, hchar]
  · refine ⟨_, _, rfl, fun rest => (decodeOne_three (by omega) (by omega) (by omega) (by omega)
      (by omega) rest).trans ?_⟩
    have hv : ((v / 4096 % 16 + 224) % 16 * 64 + (v / 64 % 64 + 128) % 64) * 64 +
        (v % 64 + 128) % 64 = v := by omega
    rw [hv, hchar]
  · refine ⟨_, _, rfl, fun rest => (decodeOne_four (by omega) (by omega) (by omega) (by omega)
      (by omega) (by omega) rest).trans ?_⟩
    have hv : (((v / 262144 % 8 + 240) % 8 * 64 + (v / 4096 % 64 + 128) % 64) * 64 +
        (v / 64 % 64 + 128) % 64) * 64 + (v % 64 + 128) % 64 = v := by omega
    rw [hv, hchar]

/-! ### A text -/

theorem decodeAll_encoded (cs : List Char) (n : Nat) (seen : List (Option Char)) (h : cs.length < n) :
    decodeAll n seen (cs.flatMap String.utf8EncodeChar) = seen.reverse ++ cs.map some := by
  induction cs generalizing n seen with
  | nil =>
    obtain ⟨n, rfl⟩ := Nat.exists_eq_succ_of_ne_zero (Nat.ne_zero_of_lt h)
    simp [decodeAll]
  | cons c cs ih =>
    obtain ⟨n, rfl⟩ := Nat.exists_eq_succ_of_ne_zero (Nat.ne_zero_of_lt h)
    obtain ⟨b, bytes, hc, hone⟩ := exists_decodeOne c
    rw [List.flatMap_cons, hc, List.cons_append, decodeAll, hone]
    simp [ih n (some c :: seen) (Nat.lt_of_succ_lt_succ h)]

theorem length_le_encoded (cs : List Char) : cs.length ≤ (cs.flatMap String.utf8EncodeChar).length := by
  induction cs with
  | nil => exact Nat.zero_le _
  | cons c cs ih =>
    obtain ⟨b, bytes, hc, -⟩ := exists_decodeOne c
    rw [List.flatMap_cons, hc, List.cons_append, List.length_cons, List.length_cons,
      List.length_append]
    omega

theorem decoded_utf8 (s : String) : decoded (utf8 s) = s.toList.map some := by
  rw [decoded, utf8_eq, decodeAll_encoded _ _ _ (Nat.lt_succ_of_le (length_le_encoded s.toList))]
  rfl

theorem toList_eq (s : String) : s.toList = (decoded (utf8 s)).filterMap id := by
  rw [decoded_utf8, List.filterMap_map, Function.id_comp, List.filterMap_some]

theorem strict?_utf8 (s : String) : strict? (utf8 s) = some s := by
  have hall : (s.toList.map some).mapM id = some s.toList := by
    induction s.toList with
    | nil => rfl
    | cons c cs ih => simp [ih]
  rw [strict?, decoded_utf8, hall, Option.map_some, String.ofList_toList]

end BlockCanvas.Text
