import BlockCanvas.Proofs.Tracking
import Mathlib.Algebra.Order.Field.Rat
import Mathlib.Tactic.FieldSimp
import Mathlib.Tactic.Ring

/-!
Typed numbers stay numbers. A number typed in ASCII comes out as a numeral of the language, whole or with a
point, that denotes the number typed (`token_numeral`). Only digits without a sign can mean something else: a
variable whose typed name they are.
-/
namespace BlockCanvas.Python

/-! ### What decimal text denotes -/

def Digits (text : List Char) : Prop :=
  text ≠ [] ∧ ∀ c ∈ text, c.isDigit = true

instance (text : List Char) : Decidable (Digits text) :=
  decidable_of_iff (text ≠ [] ∧ text.all Char.isDigit = true) (and_congr_right' List.all_eq_true)

def natOf (digits : List Char) : ℕ :=
  digits.foldl (fun n c => 10 * n + (c.toNat - '0'.toNat)) 0

def signed? {α : Type} [Neg α] (read : List Char → Option α) : List Char → Option α
  | '-' :: cs => (read cs).map (- ·)
  | '+' :: cs => read cs
  | cs => read cs

def integer? (digits : List Char) : Option ℤ :=
  if Digits digits then some (natOf digits : ℤ) else none

def power? : List Char → Option ℤ
  | [] => some 0
  | c :: cs =>
    if c = 'e' ∨ c = 'E' then signed? integer? cs else none

def unsigned? (text : List Char) : Option ℚ :=
  let whole := text.takeWhile Char.isDigit
  match text.dropWhile Char.isDigit with
  | [] => if whole = [] then none else some (natOf whole : ℚ)
  | '.' :: rest =>
    let fraction := rest.takeWhile Char.isDigit
    if whole ++ fraction = [] then none
    else (power? (rest.dropWhile Char.isDigit)).map fun (e : ℤ) =>
      natOf (whole ++ fraction) * (10 : ℚ) ^ (e - fraction.length)
  | _ => none

def number? (text : List Char) : Option ℚ :=
  signed? unsigned? text

def IsWhole (text : List Char) : Prop :=
  ∃ sign digits, text = sign ++ digits ∧ (sign = [] ∨ sign = ['-']) ∧ Digits digits ∧
    (digits.head? = some '0' → digits = ['0'])

def IsPower (text : List Char) : Prop :=
  text = [] ∨ ∃ sign digits, text = 'e' :: sign ++ digits ∧
    (sign = [] ∨ sign = ['+'] ∨ sign = ['-']) ∧ Digits digits

def IsPointed (text : List Char) : Prop :=
  ∃ sign whole fraction power, text = sign ++ (whole ++ '.' :: (fraction ++ power)) ∧
    (sign = [] ∨ sign = ['-']) ∧ Digits whole ∧ Digits fraction ∧ IsPower power

/-! ### Digits -/

theorem natOf_zero_cons (digits : List Char) : natOf ('0' :: digits) = natOf digits :=
  rfl

theorem natOf_append_zero (digits : List Char) : natOf (digits ++ ['0']) = 10 * natOf digits := by
  rw [natOf, List.foldl_append]
  rfl

theorem natOf_dropZeros (digits : List Char) : natOf (digits.dropWhile (· == '0')) = natOf digits := by
  induction digits with
  | nil => rfl
  | cons c cs ih =>
    rw [List.dropWhile_cons]
    split
    · next hc => rw [ih, eq_of_beq hc, natOf_zero_cons]
    · rfl

theorem isDigit_of_ascii {c : Char} (hascii : c.toNat < 128) (hc : Text.isDigit c = true) :
    c.isDigit = true := by
  have htable : ∀ n < 128, Text.isDigit (Char.ofNat n) = true → (Char.ofNat n).isDigit = true := by
    decide +kernel
  have hdigit := htable c.toNat hascii
  rw [Char.ofNat_toNat] at hdigit
  exact hdigit hc

section Reading
variable {whole fraction power : List Char} {e : ℤ}

theorem unsigned?_digits {digits : List Char} (h : Digits digits) :
    unsigned? digits = some (natOf digits : ℚ) := by
  have htake : digits.takeWhile Char.isDigit = digits := List.takeWhile_eq_self_iff.2 h.2
  have hdrop : digits.dropWhile Char.isDigit = [] := List.dropWhile_eq_nil_iff.2 h.2
  simp only [unsigned?, htake, hdrop, if_neg h.1]

theorem not_isDigit_of_power? (h : power? power = some e) : ∀ c ∈ power.head?, ¬ c.isDigit = true := by
  cases power with
  | nil => simp
  | cons c cs =>
    rw [power?] at h
    split at h
    · next hc => rcases hc with rfl | rfl <;> simp
    · cases h

theorem dot_head (rest : List Char) : ∀ c ∈ ('.' :: rest).head?, ¬ c.isDigit = true := by
  simp

theorem unsigned?_pointed (hwhole : ∀ c ∈ whole, c.isDigit = true)
    (hfraction : ∀ c ∈ fraction, c.isDigit = true) (hne : whole ++ fraction ≠ [])
    (hpower : power? power = some e) :
    unsigned? (whole ++ '.' :: (fraction ++ power)) =
      some (natOf (whole ++ fraction) * (10 : ℚ) ^ (e - fraction.length)) := by
  obtain ⟨htake, hdrop⟩ := Text.takeWhile_dropWhile hwhole (dot_head (fraction ++ power))
  obtain ⟨htake', hdrop'⟩ := Text.takeWhile_dropWhile hfraction (not_isDigit_of_power? hpower)
  simp only [unsigned?, htake, hdrop, htake', hdrop', if_neg hne, hpower, Option.map_some]

end Reading

/-! ### Signs -/

def Unsigned (text : List Char) : Prop :=
  ∀ c ∈ text.head?, c ≠ '-' ∧ c ≠ '+'

theorem sign_cases (token : List Char) :
    (∃ cs, token = '-' :: cs) ∨ (∃ cs, token = '+' :: cs) ∨ Unsigned token := by
  cases token with
  | nil => exact .inr (.inr nofun)
  | cons c cs =>
    by_cases hminus : c = '-'
    · exact .inl ⟨cs, by rw [hminus]⟩
    by_cases hplus : c = '+'
    · exact .inr (.inl ⟨cs, by rw [hplus]⟩)
    · exact .inr (.inr fun d hd => Option.some.inj hd ▸ ⟨hminus, hplus⟩)

section Signs
variable {text body : List Char}

theorem dropSign_unsigned (h : Unsigned text) : Literal.dropSign text = text := by
  cases text with
  | nil => rfl
  | cons c cs =>
    have hc := h c rfl
    rw [Literal.dropSign.eq_def]
    split
    · next heq => exact absurd (List.cons.inj heq).1 hc.2
    · next heq => exact absurd (List.cons.inj heq).1 hc.1
    · rfl

theorem signed?_unsigned {α : Type} [Neg α] (read : List Char → Option α) (h : Unsigned text) :
    signed? read text = read text := by
  cases text with
  | nil => rfl
  | cons c cs =>
    have hc := h c rfl
    rw [signed?.eq_def]
    split
    · next heq => exact absurd (List.cons.inj heq).1 hc.1
    · next heq => exact absurd (List.cons.inj heq).1 hc.2
    · rfl

def minus (token : List Char) : List Char :=
  if token.head? = some '-' then ['-'] else []

theorem minus_eq (token : List Char) : minus token = [] ∨ minus token = ['-'] := by
  rw [minus]
  split
  · exact .inr rfl
  · exact .inl rfl

theorem minus_unsigned (h : Unsigned text) : minus text = [] :=
  if_neg fun hhead => (h '-' hhead).1 rfl

theorem splitSign_minus {token : List Char} (h : Unsigned (Literal.dropSign token)) :
    Literal.splitSign token = (minus token, Literal.dropSign token) := by
  obtain ⟨sign, -, hsplit⟩ := splitSign_eq token fun c hc => (h c hc).2
  have hsign : (Literal.splitSign token).1 = minus token := by
    obtain ⟨cs, rfl⟩ | ⟨cs, rfl⟩ | hnone := sign_cases token
    · rfl
    · rfl
    · rw [minus_unsigned hnone, Literal.splitSign.eq_def]
      split
      · exact absurd rfl (hnone '-' rfl).1
      · rfl
  rw [hsplit] at hsign ⊢
  exact congrArg (·, _) hsign

def SameNumber (text other : List Char) : Prop :=
  ∃ x, number? text = some x ∧ number? other = some x

theorem SameNumber.of_unsigned {token : List Char} {x : ℚ} (hbody : Unsigned body)
    (htoken : unsigned? (Literal.dropSign token) = some x) (hx : unsigned? body = some x) :
    SameNumber token (minus token ++ body) := by
  obtain ⟨cs, rfl⟩ | ⟨cs, rfl⟩ | hnone := sign_cases token
  · exact ⟨-x, congrArg (Option.map (- ·)) htoken, congrArg (Option.map (- ·)) hx⟩
  · exact ⟨x, htoken, (signed?_unsigned unsigned? hbody).trans hx⟩
  · rw [dropSign_unsigned hnone] at htoken
    rw [minus_unsigned hnone]
    exact ⟨x, (signed?_unsigned unsigned? hnone).trans htoken, (signed?_unsigned unsigned? hbody).trans hx⟩

end Signs

/-! ### Whole numbers -/

theorem Digits.of_isDigits {text : List Char} (h : Literal.isDigits text = true)
    (hascii : ∀ c ∈ text, c.toNat < 128) : Digits text := by
  simp only [Literal.isDigits, Bool.and_eq_true, Bool.not_eq_true', List.isEmpty_eq_false_iff,
    List.all_eq_true] at h
  exact ⟨h.1, fun c hc => isDigit_of_ascii (hascii c hc) (h.2 c hc)⟩

theorem Digits.unsigned {digits : List Char} (h : ∀ c ∈ digits, c.isDigit = true) : Unsigned digits := by
  intro c hc
  have hdigit := h c (List.mem_of_mem_head? hc)
  constructor <;> rintro rfl <;> exact absurd hdigit (by decide)

theorem mem_of_mem_dropSign {token : List Char} {c : Char} (h : c ∈ Literal.dropSign token) : c ∈ token := by
  rw [Literal.dropSign.eq_def] at h
  split at h
  · exact List.mem_cons_of_mem _ h
  · exact List.mem_cons_of_mem _ h
  · exact h

section Typed
variable {token : List Char} (hascii : ∀ c ∈ token, c.toNat < 128)
include hascii

theorem normalInt_numeral (h : Literal.isInt token = true) :
    IsWhole (Literal.normalInt token) ∧ SameNumber token (Literal.normalInt token) := by
  have hdigits : Digits (Literal.dropSign token) :=
    .of_isDigits h fun c hc => hascii c (mem_of_mem_dropSign hc)
  have hvalue := unsigned?_digits hdigits
  have hsame := natOf_dropZeros (Literal.dropSign token)
  have hfirst := List.head?_dropWhile_not (· == '0') (Literal.dropSign token)
  have hrest : ∀ c ∈ (Literal.dropSign token).dropWhile (· == '0'), c.isDigit = true :=
    fun c hc => hdigits.2 c ((List.dropWhile_sublist _).subset hc)
  rw [Literal.normalInt, splitSign_minus (Digits.unsigned hdigits.2)]
  simp only
  split
  · next hzero =>
    have hnat : natOf (Literal.dropSign token) = 0 := by rw [← hsame, hzero]; rfl
    obtain ⟨x, hx, hzero⟩ : SameNumber token (minus token ++ ['0']) :=
      .of_unsigned (Digits.unsigned (by simp)) hvalue (by rw [hnat]; rfl)
    refine ⟨⟨[], ['0'], rfl, .inl rfl, by decide, fun _ => rfl⟩, x, hx, ?_⟩
    -- Zero with a minus is zero.
    rcases minus_eq token with hsign | hsign
    · rwa [hsign] at hzero
    · rwa [hsign, (by decide : number? (['-'] ++ ['0']) = number? ['0'])] at hzero
  · next hne =>
    have hdigits' : Digits ((Literal.dropSign token).dropWhile (· == '0')) := ⟨hne, hrest⟩
    refine ⟨⟨_, _, rfl, minus_eq token, hdigits', fun hhead => ?_⟩,
      .of_unsigned (Digits.unsigned hrest) hvalue (by rw [unsigned?_digits hdigits', hsame])⟩
    rw [hhead] at hfirst
    exact absurd hfirst (by decide)

end Typed

/-! ### Numbers with a point -/

def padded (digits : List Char) : List Char :=
  if digits = [] then ['0'] else digits

def smallMark : List Char → List Char
  | [] => []
  | _ :: cs => 'e' :: cs

theorem digits_padded {digits : List Char} (h : ∀ c ∈ digits, c.isDigit = true) : Digits (padded digits) := by
  rw [padded]
  split
  · decide
  · next hne => exact ⟨hne, h⟩

theorem power_smallMark {power : List Char} (h : Literal.isExponent power = true)
    (hascii : ∀ c ∈ power, c.toNat < 128) :
    IsPower (smallMark power) ∧ ∃ e, power? power = some e ∧ power? (smallMark power) = some e := by
  cases power with
  | nil => exact ⟨.inl rfl, 0, rfl, rfl⟩
  | cons c cs =>
    simp only [Literal.isExponent, Bool.and_eq_true, Bool.or_eq_true, beq_iff_eq] at h
    obtain ⟨hmark, hdigits⟩ := h
    have hdigits' : Digits (Literal.dropSign cs) :=
      .of_isDigits hdigits fun d hd => hascii d (List.mem_cons_of_mem _ (mem_of_mem_dropSign hd))
    rw [smallMark, power?, power?, if_pos hmark, if_pos (.inl rfl)]
    have hread : integer? (Literal.dropSign cs) = some (natOf (Literal.dropSign cs) : ℤ) := if_pos hdigits'
    obtain ⟨ds, rfl⟩ | ⟨ds, rfl⟩ | hnone := sign_cases cs
    · have hminus : signed? integer? ('-' :: ds) = some (-natOf ds : ℤ) := congrArg (Option.map (- ·)) hread
      exact ⟨.inr ⟨['-'], ds, rfl, .inr (.inr rfl), hdigits'⟩, _, hminus, hminus⟩
    · exact ⟨.inr ⟨['+'], ds, rfl, .inr (.inl rfl), hdigits'⟩, _, hread, hread⟩
    · rw [dropSign_unsigned hnone] at hdigits' hread
      rw [signed?_unsigned integer? hnone]
      exact ⟨.inr ⟨[], cs, rfl, .inl rfl, hdigits'⟩, _, hread, hread⟩

theorem isFloat_parts {token : List Char} (h : Literal.isFloat token = true) :
    ∃ whole fraction power, Literal.dropSign token = whole ++ '.' :: (fraction ++ power) ∧
      (∀ c ∈ whole, Text.isDigit c = true) ∧ (∀ c ∈ fraction, Text.isDigit c = true) ∧
      whole ++ fraction ≠ [] ∧ Literal.isExponent power = true := by
  simp only [Literal.isFloat] at h
  split at h
  · next rest hrest =>
    rw [Bool.and_eq_true] at h
    refine ⟨(Literal.dropSign token).takeWhile Text.isDigit, rest.takeWhile Text.isDigit,
      rest.dropWhile Text.isDigit, ?_, fun c => List.mem_takeWhile_imp, fun c => List.mem_takeWhile_imp, ?_,
      h.2⟩
    · rw [List.takeWhile_append_dropWhile, ← hrest, List.takeWhile_append_dropWhile]
    · simpa [-List.takeWhile_eq_nil_iff, imp_iff_not_or] using h.1
  · cases h

section Pointed
variable {whole fraction power : List Char}

theorem value_padded (whole fraction : List Char) (e : ℤ) :
    (natOf (padded whole ++ padded fraction) : ℚ) * 10 ^ (e - (padded fraction).length) =
      natOf (whole ++ fraction) * 10 ^ (e - fraction.length) := by
  have hwhole : natOf (padded whole ++ fraction) = natOf (whole ++ fraction) := by
    rw [padded]
    split
    · next hnil => rw [hnil]; rfl
    · rfl
  rw [← hwhole]
  by_cases hfraction : fraction = []
  · have hone : padded fraction = ['0'] := if_pos hfraction
    rw [hone, hfraction, natOf_append_zero, List.append_nil]
    simp only [List.length_singleton, List.length_nil, Nat.cast_one, Nat.cast_zero, sub_zero, Nat.cast_mul,
      Nat.cast_ofNat]
    rw [zpow_sub_one₀ (by norm_num)]
    field_simp
  · have hsame : padded fraction = fraction := if_neg hfraction
    rw [hsame]

theorem not_isExponentMark {text : List Char} (h : ∀ c ∈ text, c.isDigit = true) :
    ∀ c ∈ text, (!Literal.isExponentMark c) = true := by
  intro c hc
  have hdigit := h c hc
  simp only [Literal.isExponentMark, Bool.not_eq_true', Bool.or_eq_false_iff, beq_eq_false_iff_ne]
  constructor <;> rintro rfl <;> exact absurd hdigit (by decide)

theorem unsigned_pointed (hwhole : ∀ c ∈ whole, c.isDigit = true) (rest : List Char) :
    Unsigned (whole ++ '.' :: rest) := by
  cases whole with
  | nil => exact fun c hc => Option.some.inj hc ▸ by decide
  | cons d ds =>
    have hd : Unsigned [d] := Digits.unsigned (List.forall_mem_singleton.2 (hwhole d List.mem_cons_self))
    exact hd

theorem normalFloat_eq {token : List Char}
    (hbody : Literal.dropSign token = whole ++ '.' :: (fraction ++ power))
    (hwhole : ∀ c ∈ whole, c.isDigit = true) (hfraction : ∀ c ∈ fraction, c.isDigit = true)
    (hpower : Literal.isExponent power = true) :
    Literal.normalFloat token =
      minus token ++ (padded whole ++ '.' :: (padded fraction ++ smallMark power)) := by
  have hpadded : (if (Literal.dropSign token).head? == some '.' then '0' :: Literal.dropSign token
      else Literal.dropSign token) = (padded whole ++ '.' :: fraction) ++ power := by
    rw [hbody]
    cases whole with
    | nil => simp [padded]
    | cons c cs =>
      have hc : c ≠ '.' := by
        rintro rfl
        exact absurd (hwhole '.' List.mem_cons_self) (by decide)
      simp [padded, hc]
  -- the mark of the power is the first in the text, so the mantissa is all before it
  have hmark : ∀ c ∈ power.head?, ¬ (!Literal.isExponentMark c) = true := by
    cases power with
    | nil => simp
    | cons c cs =>
      simp only [Literal.isExponent, Bool.and_eq_true] at hpower
      simpa [Literal.isExponentMark, or_iff_not_imp_left] using hpower.1
  have hplain : ∀ c ∈ padded whole ++ '.' :: fraction, (!Literal.isExponentMark c) = true :=
    List.forall_mem_append.2 ⟨not_isExponentMark (digits_padded hwhole).2,
      List.forall_mem_cons.2 ⟨by decide, not_isExponentMark hfraction⟩⟩
  obtain ⟨htake, hdrop⟩ := Text.takeWhile_dropWhile hplain hmark
  have hmantissa : (if (padded whole ++ '.' :: fraction).getLast? == some '.'
      then padded whole ++ '.' :: fraction ++ ['0'] else padded whole ++ '.' :: fraction) =
        padded whole ++ '.' :: padded fraction := by
    cases fraction using List.reverseRecOn with
    | nil => simp [padded]
    | append_singleton cs c _ =>
      have hc : c ≠ '.' := by
        rintro rfl
        exact absurd (hfraction '.' (by simp)) (by decide)
      rw [← List.cons_append, ← List.append_assoc, List.getLast?_concat]
      simp [padded, hc]
  rw [Literal.normalFloat, splitSign_minus (hbody ▸ unsigned_pointed hwhole _)]
  simp only [hpadded, htake, hdrop, hmantissa]
  cases power with
  | nil => simp [smallMark]
  | cons c cs => simp [smallMark]

end Pointed

theorem normalFloat_numeral {token : List Char} (hascii : ∀ c ∈ token, c.toNat < 128)
    (h : Literal.isFloat token = true) :
    IsPointed (Literal.normalFloat token) ∧ SameNumber token (Literal.normalFloat token) := by
  obtain ⟨whole, fraction, power, hbody, hwhole, hfraction, hne, hpower⟩ := isFloat_parts h
  have hascii' : ∀ c ∈ whole ++ '.' :: (fraction ++ power), c.toNat < 128 :=
    hbody ▸ fun c hc => hascii c (mem_of_mem_dropSign hc)
  simp only [List.forall_mem_append, List.forall_mem_cons] at hascii'
  obtain ⟨hascii₁, -, hascii₂, hascii₃⟩ := hascii'
  have hwhole' : ∀ c ∈ whole, c.isDigit = true := fun c hc => isDigit_of_ascii (hascii₁ c hc) (hwhole c hc)
  have hfraction' : ∀ c ∈ fraction, c.isDigit = true :=
    fun c hc => isDigit_of_ascii (hascii₂ c hc) (hfraction c hc)
  have hpadded := digits_padded hwhole'
  have hpadded' := digits_padded hfraction'
  obtain ⟨hwritten, e, he, he'⟩ := power_smallMark hpower hascii₃
  have hvalue := unsigned?_pointed hwhole' hfraction' hne he
  have hvalue' := unsigned?_pointed hpadded.2 hpadded'.2 (List.append_ne_nil_of_left_ne_nil hpadded.1 _) he'
  rw [value_padded] at hvalue'
  rw [normalFloat_eq hbody hwhole' hfraction' hpower]
  refine ⟨⟨_, _, _, _, rfl, minus_eq token, hpadded, hpadded', hwritten⟩, ?_⟩
  exact .of_unsigned (unsigned_pointed hpadded.2 _) (hbody ▸ hvalue) hvalue'

/-! ### Typed numbers -/

theorem isInt_eq_false {token : List Char} (h : Literal.isFloat token = true) :
    Literal.isInt token = false := by
  obtain ⟨whole, fraction, power, hbody, -⟩ := isFloat_parts h
  rw [Literal.isInt, Literal.isDigits, hbody]
  simp [(by decide : Text.isDigit '.' = false)]

theorem infer_number {raw : List Char}
    (h : Literal.isInt (Text.trim raw) = true ∨ Literal.isFloat (Text.trim raw) = true) :
    (Literal.infer raw).text = if Literal.isInt (Text.trim raw) then Literal.normalInt (Text.trim raw)
      else Literal.normalFloat (Text.trim raw) := by
  have hne : (Text.trim raw).isEmpty = false := by
    cases htrim : Text.trim raw with
    | nil => rw [htrim] at h; exact absurd h (by decide)
    | cons c cs => rfl
  rw [Literal.infer, hne, if_neg Bool.false_ne_true]
  cases hint : Literal.isInt (Text.trim raw) with
  | true => rfl
  | false =>
    have hfloat := h.resolve_left (Bool.eq_false_iff.1 hint)
    simp only [hfloat, if_true, Bool.false_eq_true, if_false]
    rfl

section Token
variable {s : Scope} {raw : String}

theorem reference?_eq_none {c : Char} (hmem : c ∈ Text.trim raw.toList)
    (hc : isNameChar c = false ∧ c ≠ ' ') : s.reference? raw = none := by
  simp only [Scope.reference?]
  refine if_neg fun hname => ?_
  rw [Bool.and_eq_true, List.all_eq_true] at hname
  have hcname := hname.2 c hmem
  simp [hc.1, hc.2] at hcname

def digitName (digits : List Char) : String :=
  String.ofList ('_' :: digits)

theorem isNameChar_of_digit {c : Char} (h : c.isDigit = true) : isNameChar c = true := by
  have htable : ∀ n < 58, (Char.ofNat n).isDigit = true → isNameChar (Char.ofNat n) = true := by
    decide +kernel
  have hbound : c.toNat < 58 := by
    simp only [Char.isDigit, ge_iff_le, Bool.and_eq_true, decide_eq_true_eq, UInt32.le_iff_toNat_le] at h
    exact Nat.lt_succ_of_le h.2
  have hname := htable c.toNat hbound
  rw [Char.ofNat_toNat] at hname
  exact hname h

theorem nameChars_digits (h : Digits (Text.trim raw.toList)) : nameChars raw = Text.trim raw.toList :=
  (List.map_congr_left fun c hc => if_pos (isNameChar_of_digit (h.2 c hc))).trans (List.map_id _)

theorem identifier_digits (h : Digits (Text.trim raw.toList)) :
    identifier raw "" = digitName (Text.trim raw.toList) := by
  have hstart : startsWithDigit (Text.trim raw.toList) = true := by
    obtain ⟨d, ds, hds⟩ := List.exists_cons_of_ne_nil h.1
    rw [hds] at h ⊢
    exact h.2 d List.mem_cons_self
  have hreserved : reserved.contains (digitName (Text.trim raw.toList)) = false := by
    have hnone : ∀ name ∈ reserved, name.toList.head? ≠ some '_' := by decide
    rw [Bool.eq_false_iff]
    intro hmem
    exact hnone _ (List.contains_iff_mem.1 hmem) (by rw [digitName, String.toList_ofList]; rfl)
  rw [identifier_eq, nameChars_digits h, if_neg h.1, nameOf, if_pos hstart, unreserved]
  exact if_neg (Bool.eq_false_iff.1 hreserved)

theorem reference?_digits (h : Digits (Text.trim raw.toList)) :
    s.reference? raw = if digitName (Text.trim raw.toList) ∈ s.names
      then some (digitName (Text.trim raw.toList)) else none := by
  have hlooks : (!(Text.trim raw.toList).isEmpty &&
      (Text.trim raw.toList).all fun c => isNameChar c || c == ' ') = true := by
    simp only [Bool.and_eq_true, Bool.not_eq_true', List.isEmpty_eq_false_iff, List.all_eq_true]
    exact ⟨h.1, fun c hc => by rw [isNameChar_of_digit (h.2 c hc), Bool.true_or]⟩
  simp only [Scope.reference?, if_pos hlooks]
  rw [identifier_trim, identifier_digits h]
  simp [Scope.contains]

theorem digits_of_reference? {name : String} (h : s.reference? raw = some name)
    (hnumber : Literal.isInt (Text.trim raw.toList) = true ∨ Literal.isFloat (Text.trim raw.toList) = true)
    (hascii : ∀ c ∈ Text.trim raw.toList, c.toNat < 128) : Digits (Text.trim raw.toList) := by
  have hplain : ∀ c ∈ Text.trim raw.toList, c ≠ '-' ∧ c ≠ '+' ∧ c ≠ '.' := by
    intro c hc
    have hnone := mt (reference?_eq_none (s := s) hc) (by rw [h]; exact Option.some_ne_none name)
    refine ⟨?_, ?_, ?_⟩ <;> rintro rfl <;> exact hnone (by decide +kernel)
  have hunsigned : Literal.dropSign (Text.trim raw.toList) = Text.trim raw.toList :=
    dropSign_unsigned fun c hc =>
      have hc' := hplain c (List.mem_of_mem_head? hc)
      ⟨hc'.1, hc'.2.1⟩
  rcases hnumber with hint | hfloat
  · rw [Literal.isInt, hunsigned] at hint
    exact .of_isDigits hint hascii
  · obtain ⟨whole, fraction, power, hbody, -⟩ := isFloat_parts hfloat
    rw [hunsigned] at hbody
    exact absurd rfl (hplain '.' (hbody ▸ by simp)).2.2

end Token

/-- A number typed in ASCII comes out as a numeral that denotes it, whole if it was, unless its digits are the
typed name of a variable in use. -/
theorem token_numeral (s : Scope) (raw : String) (typed : List Char) (htyped : Text.trim raw.toList = typed)
    (hascii : ∀ c ∈ typed, c.toNat < 128)
    (hnumber : Literal.isInt typed = true ∨ Literal.isFloat typed = true) :
    if Digits typed ∧ digitName typed ∈ s.names then token s raw = digitName typed
    else
      (Literal.isInt typed = true → IsWhole (token s raw).toList) ∧
        (Literal.isFloat typed = true → IsPointed (token s raw).toList) ∧
          SameNumber typed (token s raw).toList := by
  subst htyped
  split
  · next h =>
    rw [token, reference?_digits h.1, if_pos h.2]
  · next h =>
    have hliteral : s.reference? raw = none := by
      rw [Option.eq_none_iff_forall_ne_some]
      intro name hname
      have hdigits := digits_of_reference? hname hnumber hascii
      rw [reference?_digits hdigits, if_neg fun hmem => h ⟨hdigits, hmem⟩] at hname
      cases hname
    rw [token, hliteral, literalText, String.toList_ofList, infer_number hnumber]
    rcases hnumber with hint | hfloat
    · obtain ⟨hwhole, hsame⟩ := normalInt_numeral hascii hint
      rw [if_pos hint]
      refine ⟨fun _ => hwhole, fun hfloat => ?_, hsame⟩
      exact absurd hint (Bool.eq_false_iff.1 (isInt_eq_false hfloat))
    · obtain ⟨hpointed, hsame⟩ := normalFloat_numeral hascii hfloat
      have hint := Bool.eq_false_iff.1 (isInt_eq_false hfloat)
      rw [if_neg hint]
      exact ⟨fun hwhole => absurd hwhole hint, fun _ => hpointed, hsame⟩

theorem token_numeral_padded :
    let s : Scope := ⟨["_5"]⟩
    token s " 5 " = "_5" ∧ token s " -007.E05 " = "-007.0e05" ∧
      IsPointed "-007.0e05".toList ∧ SameNumber "-007.E05".toList "-007.0e05".toList := by
  have hname := token_numeral ⟨["_5"]⟩ " 5 " ['5'] (by decide) (by simp) (.inl (by decide))
  have hnumber := token_numeral ⟨["_5"]⟩ " -007.E05 " "-007.E05".toList (by decide) (by simp)
    (.inr (by decide))
  rw [if_pos (by decide)] at hname
  rw [if_neg (by decide)] at hnumber
  have hshown : token ⟨["_5"]⟩ " -007.E05 " = "-007.0e05" := by decide +kernel
  rw [hshown] at hnumber
  exact ⟨hname, hshown, hnumber.2.1 (by decide), hnumber.2.2⟩

theorem head_of_written {text : List Char} (h : IsWhole text ∨ IsPointed text) :
    ∃ c ∈ text.head?, c = '-' ∨ c.isDigit = true := by
  obtain ⟨sign, digits, rest, rfl, hsign, hdigits⟩ : ∃ sign digits rest, text = sign ++ (digits ++ rest) ∧
      (sign = [] ∨ sign = ['-']) ∧ Digits digits := by
    rcases h with ⟨sign, digits, rfl, hsign, hdigits, -⟩ | ⟨sign, whole, _, _, rfl, hsign, hwhole, -⟩
    · exact ⟨sign, digits, [], by rw [List.append_nil], hsign, hdigits⟩
    · exact ⟨sign, whole, _, rfl, hsign, hwhole⟩
  obtain ⟨d, ds, rfl⟩ := List.exists_cons_of_ne_nil hdigits.1
  rcases hsign with rfl | rfl
  · exact ⟨d, rfl, .inr (hdigits.2 d List.mem_cons_self)⟩
  · exact ⟨'-', rfl, .inl rfl⟩

/-- A variable whose typed name is digits takes their place, and digits of another script stay as they are. -/
theorem token_strays :
    (Literal.isInt (Text.trim "5".toList) = true ∧ token ⟨["_5"]⟩ "5" = "_5" ∧
      ¬ (IsWhole "_5".toList ∨ IsPointed "_5".toList)) ∧
    (Literal.isInt (Text.trim "٣".toList) = true ∧ token {} "٣" = "٣" ∧
      ¬ (IsWhole "٣".toList ∨ IsPointed "٣".toList)) := by
  have hwritten : ∀ c : Char, ¬ (c = '-' ∨ c.isDigit = true) →
      ∀ cs, ¬ (IsWhole (c :: cs) ∨ IsPointed (c :: cs)) := by
    intro c hc cs h
    obtain ⟨d, hd, hhead⟩ := head_of_written h
    exact hc (Option.some.inj hd ▸ hhead)
  exact ⟨⟨by decide, by decide, hwritten '_' (by decide) ['5']⟩,
    by decide, by decide, hwritten '٣' (by decide) []⟩

end BlockCanvas.Python
