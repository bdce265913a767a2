import BlockCanvas.Proofs.Spelling

/-!
The names that typed text becomes. Whatever is typed, a name is not empty, is made of letters, numbers and low
lines, is no reserved word and names itself when it is typed again (`Python.Sanitised`). It can still begin with a
digit: only those of ASCII get a low line before them, and the ones of other scripts do not (`identifier_sanitised`).
-/
namespace BlockCanvas.Text

def blanks : List Nat :=
  [9, 10, 11, 12, 13, 32, 0x85, 0xA0, 0x1680, 0x2000, 0x2001, 0x2002, 0x2003, 0x2004, 0x2005, 0x2006, 0x2007,
    0x2008, 0x2009, 0x200A, 0x2028, 0x2029, 0x202F, 0x205F, 0x3000]

theorem mem_blanks_of_isBlank {c : Char} (h : isBlank c = true) : c.toNat ∈ blanks := by
  simp only [isBlank, Bool.or_eq_true, Bool.and_eq_true, decide_eq_true_eq, beq_iff_eq] at h
  simp only [blanks, List.mem_cons, List.not_mem_nil, or_false]
  omega

theorem isWord_of_isDigit {c : Char} (h : isDigit c = true) : isWord c = true := by
  have htable : digitZeros.all (fun z => wordRanges.any fun r => r.1.ble z && (z + 9).ble r.2) = true := by
    decide +kernel
  obtain ⟨value, hvalue⟩ := Option.isSome_iff_exists.1 h
  obtain ⟨z, hz, -⟩ := Option.map_eq_some_iff.1 hvalue
  have hwithin := List.find?_some hz
  obtain ⟨r, hr, hrange⟩ :=
    List.any_eq_true.1 (List.all_eq_true.1 htable z (List.mem_of_find?_eq_some hz))
  simp only [Bool.and_eq_true, decide_eq_true_eq, Nat.ble_eq] at hwithin hrange
  refine List.any_eq_true.2 ⟨r, hr, ?_⟩
  simp only [Bool.and_eq_true, decide_eq_true_eq]
  omega

theorem isDigit_ascii {c : Char} (h : c.isDigit = true) : isDigit c = true := by
  have htable : ∀ n < 58, (Char.ofNat n).isDigit = true → isDigit (Char.ofNat n) = true := by decide +kernel
  have hbound : c.toNat < 58 := by
    simp only [Char.isDigit, ge_iff_le, Bool.and_eq_true, decide_eq_true_eq, UInt32.le_iff_toNat_le] at h
    exact Nat.lt_succ_of_le h.2
  have hdigit := htable c.toNat hbound
  rw [Char.ofNat_toNat] at hdigit
  exact hdigit h

end BlockCanvas.Text

namespace BlockCanvas.Python

theorem isNameChar_of_isDigit {c : Char} (h : Text.isDigit c = true) : isNameChar c = true := by
  rw [isNameChar, Text.isWord_of_isDigit h, Bool.true_or]

theorem isBlank_of_isNameChar {c : Char} (h : isNameChar c = true) : Text.isBlank c = false := by
  have htable : ∀ n ∈ Text.blanks, Text.inRanges Text.wordRanges n = false ∧ n ≠ '_'.toNat := by decide +kernel
  by_contra hblank
  obtain ⟨hword, hline⟩ := htable _ (Text.mem_blanks_of_isBlank (Bool.not_eq_false _ ▸ hblank))
  rcases Bool.or_eq_true_iff.1 h with h | h
  · exact Bool.false_ne_true (hword.symm.trans h)
  · exact hline (congrArg Char.toNat (eq_of_beq h))

/-! ### Names as they are made -/

structure Sanitised (name : String) : Prop where
  ne_nil : name.toList ≠ []
  isNameChar : ∀ c ∈ name.toList, isNameChar c = true
  notMem_reserved : name ∉ reserved
  head : startsWithDigit name.toList = false

theorem notMem_reserved_unreserved (name : String) : unreserved name ∉ reserved := by
  have hlast : ∀ word ∈ reserved, word.toList.getLast? ≠ some '_' := by decide
  rw [unreserved]
  split
  · intro hmem
    refine hlast _ hmem ?_
    rw [String.toList_append]
    exact List.getLast?_concat
  · next h => exact fun hmem => h (List.contains_iff_mem.2 hmem)

theorem head?_nameOf {cs : List Char} (hne : cs ≠ []) :
    (nameOf cs).toList.head? = if startsWithDigit cs then some '_' else cs.head? := by
  obtain ⟨c, cs, rfl⟩ := List.exists_cons_of_ne_nil hne
  rw [nameOf, unreserved]
  split <;> split <;> simp

theorem sanitised_nameOf {cs : List Char} (hne : cs ≠ []) (hcs : ∀ c ∈ cs, isNameChar c = true) :
    Sanitised (nameOf cs) where
  ne_nil := (operand_nameOf hne hcs).ne_nil
  isNameChar := isNameChar_of_mem_nameOf hcs
  notMem_reserved := notMem_reserved_unreserved _
  head := by
    rw [startsWithDigit, head?_nameOf hne]
    cases h : startsWithDigit cs with
    | true => rfl
    | false => exact h

namespace Sanitised
variable {name : String}

theorem trim_eq (h : Sanitised name) : Text.trim name.toList = name.toList :=
  Text.trim_eq_self fun c hc => isBlank_of_isNameChar (h.isNameChar c hc)

theorem nameChars_eq (h : Sanitised name) : nameChars name = name.toList := by
  rw [nameChars, h.trim_eq]
  exact (List.map_congr_left fun c hc => if_pos (h.isNameChar c hc)).trans (List.map_id _)

theorem identifier_eq_self (h : Sanitised name) (fallback : String) : identifier name fallback = name := by
  rw [identifier_eq, h.nameChars_eq, if_neg h.ne_nil, nameOf, h.head, if_neg Bool.false_ne_true,
    String.ofList_toList, unreserved]
  exact if_neg fun hmem => h.notMem_reserved (List.contains_iff_mem.1 hmem)

theorem reference?_eq_self (h : Sanitised name) {s : Scope} (hname : s.contains name = true) :
    s.reference? name = some name := by
  have hlooks : (!name.toList.isEmpty && name.toList.all fun c => Python.isNameChar c || c == ' ') = true := by
    simp only [Bool.and_eq_true, Bool.not_eq_true', List.isEmpty_eq_false_iff, List.all_eq_true]
    exact ⟨h.ne_nil, fun c hc => by rw [h.isNameChar c hc, Bool.true_or]⟩
  rw [Scope.reference?, h.trim_eq]
  dsimp only
  rw [if_pos hlooks, String.ofList_toList, h.identifier_eq_self, if_pos hname]

end Sanitised

/-! ### Names as they should be -/

structure IsIdentifier (name : String) : Prop where
  ne_empty : name ≠ ""
  isNameChar : ∀ c ∈ name.toList, isNameChar c = true
  head : ∀ c ∈ name.toList.head?, Text.isDigit c = false
  notMem_reserved : name ∉ reserved

theorem isIdentifier_iff {name : String} : IsIdentifier name ↔ name ≠ "" ∧
    (∀ c ∈ name.toList, isNameChar c = true) ∧ (∀ c ∈ name.toList.head?, Text.isDigit c = false) ∧
      name ∉ reserved :=
  ⟨fun h => ⟨h.ne_empty, h.isNameChar, h.head, h.notMem_reserved⟩, fun h => ⟨h.1, h.2.1, h.2.2.1, h.2.2.2⟩⟩

instance (name : String) : Decidable (IsIdentifier name) :=
  decidable_of_iff (name ≠ "" ∧ name.toList.all isNameChar = true ∧
    (name.toList.head?.all fun c => !Text.isDigit c) = true ∧ name ∉ reserved) <| by
      rw [isIdentifier_iff, List.all_eq_true]
      cases name.toList.head? <;> simp

theorem IsIdentifier.sanitised {name : String} (h : IsIdentifier name) : Sanitised name where
  ne_nil := fun hnil => h.ne_empty (String.toList_inj.1 hnil)
  isNameChar := h.isNameChar
  notMem_reserved := h.notMem_reserved
  head := by
    rw [startsWithDigit]
    cases hhead : name.toList.head? with
    | none => rfl
    | some c =>
      refine Bool.eq_false_iff.2 fun hdigit => ?_
      have hnone := h.head c hhead
      rw [Text.isDigit_ascii hdigit] at hnone
      cases hnone

theorem sanitised_identifier (raw : String) {fallback : String} (h : Sanitised fallback) :
    Sanitised (identifier raw fallback) := by
  rw [identifier_eq]
  split
  · exact h
  · next hne => exact sanitised_nameOf hne fun _ => isNameChar_of_mem_nameChars

/-- The characters at the front are looked at once only: the digit that stands there is prefixed if it is one of
ASCII, and left at the front otherwise. -/
theorem head_digit_identifier_iff (raw : String) {fallback : String} (h : IsIdentifier fallback) :
    (∃ d ∈ (identifier raw fallback).toList.head?, Text.isDigit d = true) ↔
      ∃ d ∈ (Text.trim raw.toList).head?, Text.isDigit d = true ∧ d.isDigit = false := by
  rw [identifier_eq]
  cases htrim : Text.trim raw.toList with
  | nil =>
    rw [if_pos (by rw [nameChars, htrim]; rfl)]
    refine iff_of_false ?_ (by simp)
    rintro ⟨d, hd, hdigit⟩
    exact Bool.false_ne_true ((h.head d hd).symm.trans hdigit)
  | cons c cs =>
    have hchars : nameChars raw = (if isNameChar c then c else '_') ::
        cs.map fun c => if isNameChar c then c else '_' := by
      rw [nameChars, htrim, List.map_cons]
    have hne : nameChars raw ≠ [] := hchars ▸ List.cons_ne_nil _ _
    rw [if_neg hne, head?_nameOf hne, hchars]
    have hline : Text.isDigit '_' = false := by decide
    cases hname : isNameChar c with
    | false =>
      -- what is put in place of other characters is no digit, and they are none
      have hdigit : Text.isDigit c = false := Bool.eq_false_iff.2 fun hdigit =>
        Bool.false_ne_true (hname.symm.trans (isNameChar_of_isDigit hdigit))
      simp [startsWithDigit, hline, hdigit]
    | true =>
      cases hascii : c.isDigit with
      | true => simp [startsWithDigit, hascii, hline]
      | false => simp [startsWithDigit, hascii]

/-- Typed text, or the fallback for blank text, becomes a name that is made of letters, numbers and low lines, is
no reserved word, and is still the same name when it is typed again, also where a variable is looked up. It begins
with a digit just if the text begins with one that is not of ASCII. -/
theorem identifier_sanitised (raw : String) {fallback : String} (h : IsIdentifier fallback) :
    let name := identifier raw fallback
    (name ≠ "" ∧ (∀ c ∈ name.toList, isNameChar c = true) ∧ name ∉ reserved) ∧
      (∀ other, identifier name other = name) ∧
      (∀ s : Scope, s.contains name = true → s.reference? name = some name) ∧
      ((∃ d ∈ name.toList.head?, Text.isDigit d = true) ↔
        ∃ d ∈ (Text.trim raw.toList).head?, Text.isDigit d = true ∧ d.isDigit = false) := by
  intro name
  have hname : Sanitised name := sanitised_identifier raw h.sanitised
  refine ⟨⟨?_, hname.isNameChar, hname.notMem_reserved⟩, hname.identifier_eq_self,
    fun _ => hname.reference?_eq_self, head_digit_identifier_iff raw h⟩
  rintro hempty
  exact hname.ne_nil (hempty ▸ rfl)

theorem identifier_sanitised_digit :
    IsIdentifier "var" ∧ identifier "\t1er größe²! " "var" = "_1er_größe²_" ∧
      (∀ other, identifier "_1er_größe²_" other = "_1er_größe²_") ∧
      ¬ ∃ d ∈ "_1er_größe²_".toList.head?, Text.isDigit d = true := by
  have hvar : IsIdentifier "var" := by decide +kernel
  have hname : identifier "\t1er größe²! " "var" = "_1er_größe²_" := by decide +kernel
  obtain ⟨-, hagain, -, hdigit⟩ := identifier_sanitised "\t1er größe²! " hvar
  rw [hname] at hagain hdigit
  have hhead : (Text.trim "\t1er größe²! ".toList).head? = some '1' := by decide +kernel
  refine ⟨hvar, hname, hagain, fun hstart => ?_⟩
  obtain ⟨d, hd, -, hforeign⟩ := hdigit.1 hstart
  obtain rfl := Option.some.inj (hhead.symm.trans hd)
  cases hforeign

theorem identifier_foreign_digit : IsIdentifier "v" ∧ ¬ IsIdentifier (identifier "٣x" "v") := by
  decide +kernel

end BlockCanvas.Python
