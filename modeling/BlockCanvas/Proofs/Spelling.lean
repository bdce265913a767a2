import BlockCanvas.Proofs.Forest
import BlockCanvas.Proofs.Trimming
import Mathlib.Tactic.SplitIfs

/-!
How the lines of a program read. A line is told apart by its first word and its last character
(`Python.mark`); a value, whatever it is made of, is never taken for a statement or a header
(`Python.Spelled`).
-/
namespace BlockCanvas.Python

inductive Mark where
  | assignment (name : String)
  | block (kind : Kind)
  | bare
  | loose (kind : Kind)
  | pass
  | leave
  | garbled
  deriving DecidableEq

def word (text : List Char) : List Char :=
  text.takeWhile isNameChar

def afterWord (text : List Char) : List Char :=
  text.dropWhile isNameChar

def isHeader (text : List Char) : Bool :=
  text.getLast? == some ':'

def markOf (word rest : List Char) (header : Bool) : Mark :=
  if word == ['i', 'f'] then
    if header then .block .ifBranch
    else if " not (".toList.isPrefixOf rest && "): break".toList.isSuffixOf rest then .leave
    else .garbled
  else if word == ['e', 'l', 'i', 'f'] then .block .elifBranch
  else if word == ['e', 'l', 's', 'e'] then .block .elseBranch
  else if word == ['w', 'h', 'i', 'l', 'e'] then .block .whileLoop
  else if word == ['f', 'o', 'r'] then .block .forLoop
  else if word == ['p', 'r', 'i', 'n', 't'] then .block .print
  else if word == ['p', 'a', 's', 's'] then
    if rest.isEmpty then .pass
    else if rest == "  # 'elif' block is not attached to an if".toList then .loose .elifBranch
    else if rest == "  # 'else' block is not attached to an if".toList then .loose .elseBranch
    else .garbled
  else if !word.isEmpty && [' ', '=', ' '].isPrefixOf rest then .assignment (String.ofList word)
  else .bare

def mark (text : List Char) : Mark :=
  markOf (word text) (afterWord text) (isHeader text)

def leaders : List (List Char) :=
  [['i', 'f'], ['e', 'l', 'i', 'f'], ['e', 'l', 's', 'e'], ['w', 'h', 'i', 'l', 'e'],
    ['f', 'o', 'r'], ['p', 'r', 'i', 'n', 't'], ['p', 'a', 's', 's']]

theorem markOf_of_notMem_leaders {word rest : List Char} {header : Bool} (h : word ∉ leaders) :
    markOf word rest header =
      if !word.isEmpty && [' ', '=', ' '].isPrefixOf rest then .assignment (String.ofList word)
      else .bare := by
  simp only [leaders, List.mem_cons, List.not_mem_nil, or_false, not_or] at h
  obtain ⟨h₁, h₂, h₃, h₄, h₅, h₆, h₇⟩ := h
  simp only [markOf, beq_eq_false_iff_ne.2 h₁, beq_eq_false_iff_ne.2 h₂, beq_eq_false_iff_ne.2 h₃,
    beq_eq_false_iff_ne.2 h₄, beq_eq_false_iff_ne.2 h₅, beq_eq_false_iff_ne.2 h₆,
    beq_eq_false_iff_ne.2 h₇, Bool.false_eq_true, if_false]

theorem markOf_ne_bare {word rest : List Char} {header : Bool} (h : word ∈ leaders) :
    markOf word rest header ≠ .bare := by
  have hite : ∀ (p : Prop) [Decidable p] {m m' : Mark}, m ≠ .bare → m' ≠ .bare →
      (if p then m else m') ≠ .bare := by
    intro p _ m m' hm hm'
    split
    · exact hm
    · exact hm'
  simp only [leaders, List.mem_cons, List.not_mem_nil, or_false] at h
  rcases h with rfl | rfl | rfl | rfl | rfl | rfl | rfl
  · change (if header then Mark.block .ifBranch else if _ then .leave else .garbled) ≠ .bare
    exact hite _ nofun (hite _ nofun nofun)
  · exact nofun
  · exact nofun
  · exact nofun
  · exact nofun
  · exact nofun
  · change (if _ then Mark.pass else if _ then .loose _ else if _ then .loose _ else .garbled) ≠ .bare
    exact hite _ nofun (hite _ nofun (hite _ nofun nofun))

theorem markOf_eq_bare_iff {word rest : List Char} {header : Bool} :
    markOf word rest header = .bare ↔
      word ∉ leaders ∧ (word ≠ [] → ¬ [' ', '=', ' '] <+: rest) := by
  by_cases h : word ∈ leaders
  · simp only [markOf_ne_bare h, h, not_true, false_and]
  · rw [markOf_of_notMem_leaders h]
    simp [h]

theorem markOf_assignment {word rest : List Char} {header : Bool} (hne : word ≠ [])
    (hleader : word ∉ leaders) :
    markOf word (' ' :: '=' :: ' ' :: rest) header = .assignment (String.ofList word) := by
  rw [markOf_of_notMem_leaders hleader]
  simp [hne]
theorem word_append {w rest : List Char} (hw : ∀ c ∈ w, isNameChar c = true)
    (hrest : ∀ c ∈ rest.head?, isNameChar c = false) :
    word (w ++ rest) = w ∧ afterWord (w ++ rest) = rest := by
  rw [word, afterWord, List.takeWhile_append_of_pos hw, List.dropWhile_append_of_pos hw]
  cases rest with
  | nil => simp
  | cons c rest => simp [hrest c rfl]

theorem word_of_forall {w : List Char} (hw : ∀ c ∈ w, isNameChar c = true) :
    word w = w ∧ afterWord w = [] := by
  rw [word, afterWord, List.takeWhile_eq_self_iff.2 hw, List.dropWhile_eq_nil_iff.2 hw]
  exact ⟨rfl, rfl⟩

theorem mark_append {w rest : List Char} (hw : ∀ c ∈ w, isNameChar c = true)
    (hrest : ∀ c ∈ rest.head?, isNameChar c = false) :
    mark (w ++ rest) = markOf w rest (isHeader (w ++ rest)) := by
  rw [mark, (word_append hw hrest).1, (word_append hw hrest).2]

/-! ### Characters -/

theorem isNameChar_space : isNameChar ' ' = false := by decide +kernel

theorem isNameChar_newline : isNameChar '\n' = false := by decide +kernel

theorem isNameChar_colon : isNameChar ':' = false := by decide +kernel

/-! ### Values -/

structure Readable (text : List Char) : Prop where
  ne_nil : text ≠ []
  unbroken : '\n' ∉ text
  start : text.head? ≠ some ' '

structure Marked (text : String) (header : Bool) (m : Mark) : Prop where
  readable : Readable text.toList
  isHeader_eq : isHeader text.toList = header
  mark_eq : mark text.toList = m

structure Spelled (text : List Char) : Prop extends Readable text where
  stop : text.getLast? ≠ some ':'
  bare : mark text = .bare

/-- Such text with no space after its leading word, which can stand on the left of an operator. -/
structure Operand (text : List Char) : Prop extends Spelled text where
  gap : word text = [] ∨ (afterWord text).head? ≠ some ' '

theorem Spelled.marked {text : String} (h : Spelled text.toList) : Marked text false .bare :=
  ⟨h.toReadable, by simpa [isHeader] using h.stop, h.bare⟩

theorem Operand.of_head {c : Char} {cs : List Char} (hc : isNameChar c = false) (hspace : c ≠ ' ')
    (hunbroken : '\n' ∉ c :: cs) (hstop : (c :: cs).getLast? ≠ some ':') : Operand (c :: cs) := by
  have hword : word (c :: cs) = [] := by simp [word, hc]
  refine ⟨⟨⟨List.cons_ne_nil _ _, hunbroken, by simpa using hspace⟩, hstop, ?_⟩, Or.inl hword⟩
  rw [mark, hword]
  exact markOf_eq_bare_iff.2 ⟨by decide, fun h => absurd rfl h⟩

theorem Operand.of_word {w : List Char} (hne : w ≠ []) (hw : w.all isNameChar = true)
    (hleader : w ∉ leaders) : Operand w := by
  rw [List.all_eq_true] at hw
  have hno : ∀ {c : Char}, isNameChar c = false → c ∉ w := fun hc hm => by simp [hw _ hm] at hc
  have hword := word_of_forall hw
  refine ⟨⟨⟨hne, hno isNameChar_newline, ?_⟩, ?_, ?_⟩, Or.inr (by simp [hword.2])⟩
  · exact fun h => hno isNameChar_space (List.mem_of_head? h)
  · exact fun h => hno isNameChar_colon (List.mem_of_getLast? h)
  · rw [mark, hword.1, hword.2]
    exact markOf_eq_bare_iff.2 ⟨hleader, by simp⟩

/-! ### Names -/

theorem isNameChar_lowLine : isNameChar '_' = true := by decide +kernel

theorem isNameChar_of_mem_nameChars {raw : String} {c : Char} (hc : c ∈ nameChars raw) :
    isNameChar c = true := by
  obtain ⟨c', -, rfl⟩ := List.mem_map.1 hc
  split
  · assumption
  · exact isNameChar_lowLine

def unreserved (name : String) : String :=
  if reserved.contains name then name ++ "_" else name

theorem mem_unreserved {name : String} {c : Char} (h : c ∈ (unreserved name).toList) :
    c ∈ name.toList ∨ c = '_' := by
  rw [unreserved] at h
  split at h
  · simpa using h
  · exact Or.inl h

theorem unreserved_notMem_leaders (name : String) : (unreserved name).toList ∉ leaders := by
  have hreserved : ∀ w ∈ leaders, reserved.contains (String.ofList w) = true := by decide
  have hlast : ∀ w ∈ leaders, w.getLast? ≠ some '_' := by decide
  intro hm
  rw [unreserved] at hm
  split at hm
  · refine hlast _ hm ?_
    rw [String.toList_append]
    exact List.getLast?_concat
  · next h =>
    have := hreserved _ hm
    rw [String.ofList_toList] at this
    exact h this

def nameOf (cs : List Char) : String :=
  unreserved (String.ofList (if startsWithDigit cs then '_' :: cs else cs))

theorem identifier_eq (raw fallback : String) :
    identifier raw fallback = if nameChars raw = [] then fallback else nameOf (nameChars raw) := by
  rw [identifier]
  split
  · next h => simp [h]
  · next h => rw [if_neg (fun he => h he)]; rfl

theorem isNameChar_of_mem_nameOf {cs : List Char} (hcs : ∀ c ∈ cs, isNameChar c = true) :
    ∀ c ∈ (nameOf cs).toList, isNameChar c = true := by
  intro c hc
  rcases mem_unreserved hc with hc | rfl
  · rw [String.toList_ofList] at hc
    split at hc
    · rcases List.mem_cons.1 hc with rfl | hc
      · exact isNameChar_lowLine
      · exact hcs c hc
    · exact hcs c hc
  · exact isNameChar_lowLine

theorem operand_nameOf {cs : List Char} (hne : cs ≠ []) (hcs : ∀ c ∈ cs, isNameChar c = true) :
    Operand (nameOf cs).toList := by
  refine .of_word ?_ (List.all_eq_true.2 (isNameChar_of_mem_nameOf hcs)) (unreserved_notMem_leaders _)
  rw [nameOf, unreserved]
  split <;> split <;> simp [hne]

theorem operand_identifier {raw fallback : String} (h : nameChars raw ≠ [] ∨ Operand fallback.toList) :
    Operand (identifier raw fallback).toList := by
  rw [identifier_eq]
  split
  · next he => exact h.resolve_left fun hne => hne he
  · next hne => exact operand_nameOf hne fun _ => isNameChar_of_mem_nameChars

theorem isNameChar_of_mem_identifier {raw fallback : String}
    (h : ∀ c ∈ fallback.toList, isNameChar c = true) :
    ∀ c ∈ (identifier raw fallback).toList, isNameChar c = true := by
  rw [identifier_eq]
  split
  · exact h
  · exact isNameChar_of_mem_nameOf fun _ => isNameChar_of_mem_nameChars

theorem operand_var : Operand "var".toList :=
  .of_word (by decide) (by decide) (by decide)

theorem operand_none : Operand "None".toList :=
  .of_word (by decide) (by decide) (by decide)

/-! ### Trimming -/

theorem nameChars_ne_nil {raw : List Char} (h : Text.trim raw ≠ []) :
    nameChars (String.ofList (Text.trim raw)) ≠ [] := by
  rw [nameChars, String.toList_ofList, Text.trim_trim]
  exact mt List.map_eq_nil_iff.1 h

theorem operand_of_reference? {s : Scope} {raw name : String} (h : s.reference? raw = some name) :
    Operand name.toList := by
  simp only [Scope.reference?] at h
  split at h
  · next hc =>
    split at h
    · obtain rfl := Option.some.inj h
      have hne : Text.trim raw.toList ≠ [] := by
        intro he
        simp [he] at hc
      exact operand_identifier (Or.inl (nameChars_ne_nil hne))
    · cases h
  · cases h

/-! ### Literals -/

def isNumeric (c : Char) : Bool :=
  Text.isDigit c || ['+', '-', '.', 'e', 'E'].contains c

theorem Operand.of_numeric {c : Char} {cs : List Char} (hc : Text.isDigit c = true ∨ c = '-')
    (hcs : ∀ c ∈ cs, isNumeric c = true) : Operand (c :: cs) := by
  have hno : ∀ {x : Char}, isNumeric x = false → x ∉ c :: cs := by
    intro x hx hm
    rcases List.mem_cons.1 hm with rfl | hm
    · rcases hc with hc | rfl
      · simp [isNumeric, hc] at hx
      · exact absurd hx (by decide)
    · simp [hcs x hm] at hx
  have hspace : ' ' ∉ afterWord (c :: cs) := fun hm =>
    hno (x := ' ') (by decide) ((List.dropWhile_sublist _).subset hm)
  -- no statement begins with a digit or a minus
  have hleader : word (c :: cs) ∉ leaders := by
    have hheads : ∀ w ∈ leaders, w.head?.all (fun x => !Text.isDigit x && x != '-') = true := by decide
    cases hn : isNameChar c with
    | false =>
      simp only [word, List.takeWhile_cons, hn, Bool.false_eq_true, if_false]
      decide
    | true =>
      intro hm
      simp only [word, List.takeWhile_cons, hn, if_true] at hm
      have hhead := hheads _ hm
      simp only [List.head?_cons, Option.all_some, Bool.and_eq_true, Bool.not_eq_true',
        bne_iff_ne] at hhead
      rcases hc with hc | hc
      · simp [hc] at hhead
      · exact hhead.2 hc
  refine ⟨⟨⟨List.cons_ne_nil _ _, hno (by decide), ?_⟩, ?_, ?_⟩, Or.inr ?_⟩
  · exact fun h => hno (x := ' ') (by decide) (List.mem_of_head? h)
  · exact fun h => hno (x := ':') (by decide) (List.mem_of_getLast? h)
  · exact markOf_eq_bare_iff.2 ⟨hleader, fun _ hp => hspace (hp.subset List.mem_cons_self)⟩
  · exact fun h => hspace (List.mem_of_head? h)

theorem isNumeric_of_isDigit {c : Char} (h : Text.isDigit c = true) : isNumeric c = true := by
  simp [isNumeric, h]

theorem isNumeric_of_dropSign {cs : List Char} (h : ∀ c ∈ Literal.dropSign cs, isNumeric c = true) :
    ∀ c ∈ cs, isNumeric c = true := by
  rw [Literal.dropSign.eq_def] at h
  split at h
  · exact List.forall_mem_cons.2 ⟨by decide, h⟩
  · exact List.forall_mem_cons.2 ⟨by decide, h⟩
  · exact h

theorem splitSign_eq (token : List Char) (h : ∀ c ∈ (Literal.dropSign token).head?, c ≠ '+') :
    ∃ sign, (sign = [] ∨ sign = ['-']) ∧ Literal.splitSign token = (sign, Literal.dropSign token) := by
  have hplus : ∀ {cs : List Char}, (∀ c ∈ cs.head?, c ≠ '+') → cs.dropWhile (· == '+') = cs := by
    intro cs hcs
    cases cs with
    | nil => rfl
    | cons c cs => simp [hcs c rfl]
  rw [Literal.dropSign.eq_def] at h ⊢
  split at h
  · next cs => exact ⟨[], Or.inl rfl, congrArg (Prod.mk []) (hplus h)⟩
  · next cs => exact ⟨['-'], Or.inr rfl, rfl⟩
  · next hp hm =>
    refine ⟨[], Or.inl rfl, ?_⟩
    rw [Literal.splitSign.eq_def]
    split
    · next cs => exact absurd rfl (hm cs)
    · exact congrArg (Prod.mk []) (hplus h)

theorem operand_signed {sign cs : List Char} {d : Char} (hsign : sign = [] ∨ sign = ['-'])
    (hd : Text.isDigit d = true) (hcs : ∀ c ∈ cs, isNumeric c = true) : Operand (sign ++ d :: cs) := by
  rcases hsign with rfl | rfl
  · exact .of_numeric (Or.inl hd) hcs
  · exact .of_numeric (Or.inr rfl) (List.forall_mem_cons.2 ⟨isNumeric_of_isDigit hd, hcs⟩)

theorem operand_normalInt {token : List Char} (h : Literal.isInt token = true) :
    Operand (Literal.normalInt token) := by
  simp only [Literal.isInt, Literal.isDigits, Bool.and_eq_true, List.all_eq_true] at h
  obtain ⟨sign, hsign, hsplit⟩ := splitSign_eq token fun c hc hplus =>
    absurd (h.2 c (List.mem_of_head? hc)) (by subst hplus; decide)
  rw [Literal.normalInt, hsplit]
  simp only
  split
  · exact .of_numeric (Or.inl (by decide)) (by simp)
  · next hne =>
    have hdigits : ∀ c ∈ (Literal.dropSign token).dropWhile (· == '0'), Text.isDigit c = true :=
      fun c hc => h.2 c ((List.dropWhile_sublist _).subset hc)
    obtain ⟨d, cs, hdcs⟩ := List.exists_cons_of_ne_nil hne
    rw [hdcs] at hdigits ⊢
    exact operand_signed hsign (hdigits d List.mem_cons_self) fun c hc =>
      isNumeric_of_isDigit (hdigits c (List.mem_cons_of_mem _ hc))

theorem isNumeric_of_isExponent {cs : List Char} (h : Literal.isExponent cs = true) :
    ∀ c ∈ cs, isNumeric c = true := by
  cases cs with
  | nil => exact fun _ hc => nomatch hc
  | cons e cs =>
    simp only [Literal.isExponent, Literal.isDigits, Bool.and_eq_true, List.all_eq_true, Bool.or_eq_true,
      beq_iff_eq] at h
    obtain ⟨he, -, hdigits⟩ := h
    have hrest := isNumeric_of_dropSign fun c hc => isNumeric_of_isDigit (hdigits c hc)
    refine List.forall_mem_cons.2 ⟨?_, hrest⟩
    rcases he with rfl | rfl <;> decide

theorem isNumeric_of_isFloat {token : List Char} (h : Literal.isFloat token = true) :
    (∀ c ∈ Literal.dropSign token, isNumeric c = true) ∧
      ∃ c cs, Literal.dropSign token = c :: cs ∧ (Text.isDigit c = true ∨ c = '.') := by
  simp only [Literal.isFloat] at h
  split at h
  · next rest hrest =>
    rw [Bool.and_eq_true] at h
    have hbody : Literal.dropSign token =
        (Literal.dropSign token).takeWhile Text.isDigit ++ '.' :: rest := by
      rw [← hrest, List.takeWhile_append_dropWhile]
    have hwhole : ∀ c ∈ (Literal.dropSign token).takeWhile Text.isDigit, Text.isDigit c = true :=
      fun c hc => List.mem_takeWhile_imp hc
    have hfraction : ∀ c ∈ rest, isNumeric c = true := by
      intro c hc
      rw [← List.takeWhile_append_dropWhile (p := Text.isDigit) (l := rest), List.mem_append] at hc
      rcases hc with hc | hc
      · exact isNumeric_of_isDigit (List.mem_takeWhile_imp hc)
      · exact isNumeric_of_isExponent h.2 c hc
    generalize (Literal.dropSign token).takeWhile Text.isDigit = whole at hbody hwhole
    rw [hbody]
    refine ⟨fun c hc => ?_, ?_⟩
    · rcases List.mem_append.1 hc with hc | hc
      · exact isNumeric_of_isDigit (hwhole c hc)
      · exact List.forall_mem_cons.2 ⟨by decide, hfraction⟩ c hc
    · cases whole with
      | nil => exact ⟨'.', rest, rfl, Or.inr rfl⟩
      | cons d whole => exact ⟨d, _, rfl, Or.inl (hwhole d List.mem_cons_self)⟩
  · exact nomatch h

theorem exists_mantissa {d : Char} {ds : List Char} (hd : Text.isDigit d = true)
    (hds : ∀ c ∈ ds, isNumeric c = true) :
    ∃ cs, (∀ c ∈ cs, isNumeric c = true) ∧
      (let mantissa := (d :: ds).takeWhile fun c => !Literal.isExponentMark c
      if mantissa.getLast? == some '.' then mantissa ++ ['0'] else mantissa) = d :: cs := by
  have hmark : Literal.isExponentMark d = false := by
    simp only [Literal.isExponentMark, Bool.or_eq_false_iff, beq_eq_false_iff_ne]
    constructor <;> rintro rfl <;> exact absurd hd (by decide)
  have hcs : ∀ c ∈ ds.takeWhile fun c => !Literal.isExponentMark c, isNumeric c = true :=
    fun c hc => hds c ((List.takeWhile_sublist _).subset hc)
  simp only [List.takeWhile_cons, hmark, Bool.not_false, if_true]
  split
  · refine ⟨_, ?_, List.cons_append⟩
    intro c hc
    rcases List.mem_append.1 hc with hc | hc
    · exact hcs c hc
    · rw [List.mem_singleton.1 hc]
      decide
  · exact ⟨_, hcs, rfl⟩

theorem operand_normalFloat {token : List Char} (h : Literal.isFloat token = true) :
    Operand (Literal.normalFloat token) := by
  obtain ⟨hall, c, cs, hbody, hc⟩ := isNumeric_of_isFloat h
  obtain ⟨sign, hsign, hsplit⟩ := splitSign_eq token fun x hx hplus => by
    rw [hbody] at hx
    obtain rfl : c = '+' := (Option.some.inj hx).trans hplus
    exact absurd hc (by decide)
  obtain ⟨d, ds, hd, hds, hpadded⟩ : ∃ d ds, Text.isDigit d = true ∧ (∀ c ∈ ds, isNumeric c = true) ∧
      (if (c :: cs).head? == some '.' then '0' :: c :: cs else c :: cs) = d :: ds := by
    rw [hbody] at hall
    by_cases hpoint : c = '.'
    · exact ⟨'0', c :: cs, by decide, hall, by simp [hpoint]⟩
    · exact ⟨c, cs, hc.resolve_right hpoint, fun x hx => hall x (List.mem_cons_of_mem _ hx),
        by simp [hpoint]⟩
  obtain ⟨ms, hms, hmantissa⟩ := exists_mantissa hd hds
  rw [Literal.normalFloat, hsplit]
  simp only [hbody, hpadded] at hmantissa ⊢
  rw [hmantissa]
  split
  · exact operand_signed hsign hd hms
  · next e exponent hexp =>
    have hall' : ∀ x ∈ d :: ds, isNumeric x = true :=
      List.forall_mem_cons.2 ⟨isNumeric_of_isDigit hd, hds⟩
    have hexponent : ∀ x ∈ 'e' :: exponent, isNumeric x = true := by
      refine List.forall_mem_cons.2 ⟨by decide, fun x hx => ?_⟩
      have hx' : x ∈ d :: ds := (List.dropWhile_sublist _).subset (hexp ▸ List.mem_cons_of_mem e hx)
      exact hall' x hx'
    rw [List.append_assoc, List.cons_append]
    exact operand_signed hsign hd (List.forall_mem_append.2 ⟨hms, hexponent⟩)

/-! #### Quoted text -/

theorem newline_notMem_quotedChar {q : Char} (hq : q ≠ '\n') (c : Char) :
    '\n' ∉ Literal.quotedChar q c := by
  have hbyte : ∀ n < 0xA0, '\n' ∉ Text.hexByte n := by decide +kernel
  rw [Literal.quotedChar]
  split
  · next h =>
    rw [eq_of_beq h]
    simpa using Ne.symm hq
  · rw [Literal.escapeChar]
    split_ifs with h₁ h₂ h₃ h₄ h₅
    · decide
    · decide
    · decide
    · decide
    · have hn : c.toNat < 0xA0 := by
        simp only [Text.isControl, Bool.or_eq_true, Bool.and_eq_true, decide_eq_true_eq] at h₅
        omega
      simpa using hbyte _ hn
    · simpa using fun he : '\n' = c => h₂ (by simp [← he])

theorem operand_quoted {q : Char} (hq : q = '"' ∨ q = '\'') (text : List Char) :
    Operand (Literal.quoted q text) := by
  have hplain : isNameChar q = false ∧ q ≠ ' ' ∧ q ≠ '\n' ∧ q ≠ ':' := by
    rcases hq with rfl | rfl <;> decide +kernel
  obtain ⟨hname, hspace, hnewline, hcolon⟩ := hplain
  rw [Literal.quoted, List.cons_append]
  refine .of_head hname hspace ?_ ?_
  · intro hm
    simp only [List.mem_cons, List.mem_append, List.mem_flatMap, List.not_mem_nil, or_false] at hm
    rcases hm with hm | ⟨c, -, hm⟩ | hm
    · exact hnewline hm.symm
    · exact newline_notMem_quotedChar hnewline c hm
    · exact hnewline hm.symm
  · rw [← List.cons_append, List.getLast?_concat]
    simpa using hcolon

theorem operand_infer (raw : List Char) : Operand (Literal.infer raw).text := by
  rw [Literal.infer]
  split_ifs with hempty hint hfloat htrue hfalse
  · exact .of_word (by decide) (by decide) (by decide)
  · exact operand_normalInt hint
  · exact operand_normalFloat hfloat
  · exact .of_word (by decide) (by decide) (by decide)
  · exact .of_word (by decide) (by decide) (by decide)
  · split
    · exact operand_quoted (Or.inl rfl) _
    · split
      · exact operand_quoted (Or.inr rfl) _
      · exact operand_quoted (Or.inl rfl) _

theorem operand_token (s : Scope) (raw : String) : Operand (token s raw).toList := by
  rw [token]
  split
  · exact operand_of_reference? (by assumption)
  · rw [literalText, String.toList_ofList]
    exact operand_infer _

/-! ### Expressions -/

def Scope.Plain (s : Scope) : Prop :=
  ∀ name ∈ s.names, '\n' ∉ name.toList

theorem Scope.Plain.register {s : Scope} (h : s.Plain) {name : String} (hn : '\n' ∉ name.toList) :
    (s.register name).Plain := by
  rw [Scope.register]
  split
  · exact h
  · exact List.forall_mem_append.2 ⟨h, by simpa using hn⟩

theorem unbroken_identifier {raw fallback : String} (h : ∀ c ∈ fallback.toList, isNameChar c = true) :
    '\n' ∉ (identifier raw fallback).toList := by
  intro hm
  have := isNameChar_of_mem_identifier h _ hm
  rw [isNameChar_newline] at this
  exact nomatch this

theorem not_isNameChar_of_head? (text : List Char) :
    ∀ c ∈ (afterWord text).head?, isNameChar c = false := by
  intro c hc
  have h := List.head?_dropWhile_not isNameChar text
  rw [afterWord, Option.mem_def] at hc
  rw [hc] at h
  exact h

theorem isNameChar_of_mem_word {text : List Char} : ∀ c ∈ word text, isNameChar c = true :=
  fun _ hc => List.mem_takeWhile_imp hc

theorem spelled_operation {left right : String} (hl : Operand left.toList) (hr : Spelled right.toList)
    (op : Operator) : Spelled (left ++ " " ++ op.symbol ++ " " ++ right).toList := by
  have htext : (left ++ " " ++ op.symbol ++ " " ++ right).toList =
      left.toList ++ ' ' :: (op.symbol.toList ++ ' ' :: right.toList) := by simp
  rw [htext]
  refine ⟨⟨by simp, ?_, ?_⟩, ?_, ?_⟩
  · have hsymbol : '\n' ∉ op.symbol.toList := by cases op <;> decide
    simp [hl.unbroken, hr.unbroken, hsymbol]
  · rw [List.head?_append_of_ne_nil _ hl.ne_nil]
    exact hl.start
  · have hsplit : left.toList ++ ' ' :: (op.symbol.toList ++ ' ' :: right.toList) =
        (left.toList ++ ' ' :: (op.symbol.toList ++ [' '])) ++ right.toList := by simp
    rw [hsplit, List.getLast?_append_of_ne_nil _ hr.ne_nil]
    exact hr.stop
  · -- the leading word is that of the left operand, which a space ends at the latest
    have hleft : left.toList = word left.toList ++ afterWord left.toList :=
      List.takeWhile_append_dropWhile.symm
    obtain ⟨hleader, -⟩ := markOf_eq_bare_iff.1 hl.bare
    have hbreak : ∀ c ∈ (afterWord left.toList ++ ' ' :: (op.symbol.toList ++ ' ' :: right.toList)).head?,
        isNameChar c = false := by
      have hhead := not_isNameChar_of_head? left.toList
      cases hafter : afterWord left.toList with
      | nil =>
        rintro c hc
        obtain rfl : ' ' = c := Option.some.inj hc
        exact isNameChar_space
      | cons x xs =>
        rw [hafter] at hhead
        exact hhead
    rw [hleft, List.append_assoc, mark_append isNameChar_of_mem_word hbreak]
    refine markOf_eq_bare_iff.2 ⟨hleader, fun hword => ?_⟩
    have hgap := hl.gap.resolve_left hword
    cases hafter : afterWord left.toList with
    | nil => cases op <;> simp [Operator.symbol, List.cons_prefix_cons]
    | cons c cs =>
      rw [hafter] at hgap
      rw [List.cons_append, List.cons_prefix_cons]
      exact fun h => hgap (congrArg some h.1.symm)

theorem operand_parenthesized {text : String} (h : Spelled text.toList) :
    Operand ("(" ++ text ++ ")").toList := by
  have htext : ("(" ++ text ++ ")").toList = '(' :: (text.toList ++ [')']) := by simp
  rw [htext]
  refine .of_head (by decide +kernel) (by decide) ?_ ?_
  · simp [h.unbroken]
  · rw [← List.cons_append, List.getLast?_concat]
    decide

def Valued (r : Scope × String) : Prop :=
  r.1.Plain ∧ Spelled r.2.toList

/-- What holds of the expression of a block; only operations need parentheses. -/
def Expressed (t : Tree) : Prop :=
  ∀ s : Scope, s.Plain → Valued (expression s t) ∧
    (t.kind ≠ .operation → Operand (expression s t).2.toList)

theorem valued_slotText {s : Scope} (hs : s.Plain) (operand : Bool) (name : String)
    {slots : List (Slot Tree)} (h : ∀ t ∈ slots.flatMap Slot.children, Expressed t)
    {r : Scope × String} (hr : slotText s operand name slots = some r) :
    Valued r ∧ (operand = true → Operand r.2.toList) := by
  induction slots with
  | nil => simp [slotText] at hr
  | cons slot slots ih =>
    rw [List.flatMap_cons] at h
    have hrest := ih fun t ht => h t (List.mem_append_right _ ht)
    obtain ⟨n, content⟩ := slot
    cases content with
    | body entries =>
      rw [slotText] at hr
      split at hr
      · exact nomatch hr
      · exact hrest hr
    | value child literal =>
      cases child with
      | none =>
        rw [slotText] at hr
        split at hr
        · split at hr
          · exact nomatch hr
          · obtain rfl := Option.some.inj hr
            have ht := operand_token s literal
            exact ⟨⟨hs, ht.toSpelled⟩, fun _ => ht⟩
        · exact hrest hr
      | some t =>
        rw [slotText] at hr
        split at hr
        · obtain rfl := Option.some.inj hr
          have ht := List.mem_append_left (slots.flatMap Slot.children) (List.mem_singleton_self t)
          obtain ⟨⟨hplain, hspelled⟩, hoperand⟩ := h t ht s hs
          -- parentheses make an operand of any value, and only an operation needs them
          have hparens := operand_parenthesized hspelled
          cases operand with
          | false => exact ⟨⟨hplain, hspelled⟩, nofun⟩
          | true =>
            by_cases hkind : t.kind = .operation
            · simp only [hkind, beq_self_eq_true, Bool.and_true, if_true]
              exact ⟨⟨hplain, hparens.toSpelled⟩, fun _ => hparens⟩
            · have hplainText : (true && t.kind == .operation) = false := by simpa using hkind
              simp only [hplainText, Bool.false_eq_true, if_false]
              exact ⟨⟨hplain, hspelled⟩, fun _ => hoperand hkind⟩
        · exact hrest hr

theorem valued_slotText_getD {s : Scope} (hs : s.Plain) (operand : Bool) (name : String)
    {slots : List (Slot Tree)} (h : ∀ t ∈ slots.flatMap Slot.children, Expressed t) (fallback : String)
    (hf : Operand fallback.toList) :
    Valued ((slotText s operand name slots).getD (s, fallback)) ∧
      (operand = true → Operand ((slotText s operand name slots).getD (s, fallback)).2.toList) := by
  cases hr : slotText s operand name slots with
  | none => exact ⟨⟨hs, hf.toSpelled⟩, fun _ => hf⟩
  | some r => exact valued_slotText hs operand name h hr

theorem expressed (t : Tree) : Expressed t := by
  induction t using Tree.induction with
  | step t ih =>
    obtain ⟨id, face, slots, chain⟩ := t
    have hslots : ∀ t ∈ slots.flatMap Slot.children, Expressed t := fun t ht =>
      ih t (List.mem_append_left _ ht)
    intro s hs
    rw [expression]
    split
    · next hkind =>
      obtain ⟨⟨hplain, -⟩, hleft⟩ := valued_slotText_getD hs true "left" hslots "0"
        (.of_word (by decide) (by decide) (by decide))
      obtain ⟨⟨hplain', hspelled⟩, -⟩ := valued_slotText_getD hplain true "right" hslots "0"
        (.of_word (by decide) (by decide) (by decide))
      exact ⟨⟨hplain', spelled_operation (hleft rfl) hspelled _⟩, fun hne => absurd hkind hne⟩
    · have hname : Operand (identifier face.name "var").toList :=
        operand_identifier (Or.inr operand_var)
      exact ⟨⟨hs.register hname.unbroken, hname.toSpelled⟩, fun _ => hname⟩
    · exact ⟨⟨hs, operand_none.toSpelled⟩, fun _ => operand_none⟩

end BlockCanvas.Python
