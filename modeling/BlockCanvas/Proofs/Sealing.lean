import BlockCanvas.Proofs.Draft
import BlockCanvas.Proofs.Indentation
import BlockCanvas.Proofs.Reachable

/-!
Typed text does not leave its place. Whatever is typed into a block comes out as names, numbers and quoted
text that a scan of the line from left to right leaves as it entered it (`Sealed`), on the line that it was
written on (`Canvas.program_sealed`).
-/
namespace BlockCanvas.Python

/-! ### Scanning a line -/

inductive Reading where
  | code
  | inside (quote : Char)
  | escaped (quote : Char)
  deriving DecidableEq

/-- A quote opens a string, and the same quote closes it unless there is a backslash before it. Nothing comes
after the start of a comment. -/
def Reading.next : Reading → Char → Option Reading
  | .code, c => if c == '#' then none else some (if c == '"' || c == '\'' then .inside c else .code)
  | .inside q, c => some (if c == '\\' then .escaped q else if c == q then .code else .inside q)
  | .escaped q, _ => some (.inside q)

def scan (r : Reading) (text : List Char) : Option Reading :=
  text.foldlM Reading.next r

def Sealed (text : List Char) : Prop :=
  scan .code text = some .code

instance (text : List Char) : Decidable (Sealed text) :=
  inferInstanceAs (Decidable (scan .code text = some .code))

theorem scan_append (r : Reading) (xs ys : List Char) :
    scan r (xs ++ ys) = (scan r xs).bind fun r' => scan r' ys :=
  List.foldlM_append

theorem scan_cons (r : Reading) (c : Char) (cs : List Char) :
    scan r (c :: cs) = (r.next c).bind fun r' => scan r' cs :=
  List.foldlM_cons

structure Tame (text : List Char) : Prop where
  isSealed : Sealed text
  visible : ∀ c ∈ text, Text.isControl c = false

namespace Tame

theorem nil : Tame [] :=
  ⟨rfl, nofun⟩

theorem append {xs ys : List Char} (hx : Tame xs) (hy : Tame ys) : Tame (xs ++ ys) := by
  refine ⟨?_, List.forall_mem_append.2 ⟨hx.visible, hy.visible⟩⟩
  rw [Sealed, scan_append, hx.isSealed]
  exact hy.isSealed

end Tame

/-! ### Names and numbers -/

def isPlain (c : Char) : Bool :=
  !Text.isControl c && c != '#' && c != '"' && c != '\''

/-- Quotes and hashes come before the digits, and the other control characters after the letters of ASCII. -/
theorem isPlain_of_toNat {c : Char} (hlow : 0x30 ≤ c.toNat) (hhigh : c.toNat < 0x7F ∨ 0x9F < c.toNat) :
    isPlain c = true := by
  have hcontrol : Text.isControl c = false := by
    simp only [Text.isControl, Bool.or_eq_false_iff, Bool.and_eq_false_iff, decide_eq_false_iff_not]
    omega
  have hne : ∀ x : Char, x.toNat < 0x30 → c ≠ x := by
    rintro x hx rfl
    omega
  simp [isPlain, hcontrol, hne '#' (by decide), hne '"' (by decide), hne '\'' (by decide)]

theorem isPlain_of_isNameChar {c : Char} (h : isNameChar c = true) : isPlain c = true := by
  have hranges : ∀ r ∈ Text.wordRanges, 0x30 ≤ r.1 ∧ (r.2 < 0x7F ∨ 0x9F < r.1) := by decide +kernel
  rw [isNameChar, Bool.or_eq_true] at h
  rcases h with h | h
  · obtain ⟨r, hr, hc⟩ := List.any_eq_true.1 h
    simp only [Bool.and_eq_true, decide_eq_true_eq] at hc
    have hbounds := hranges r hr
    exact isPlain_of_toNat (by omega) (by omega)
  · rw [eq_of_beq h]
    decide

theorem isPlain_of_isNumeric {c : Char} (h : isNumeric c = true) : isPlain c = true := by
  have hzeros : ∀ z ∈ Text.digitZeros, 0x30 ≤ z ∧ (z + 10 ≤ 0x7F ∨ 0x9F < z) := by decide
  have hsigns : ∀ c ∈ ['+', '-', '.', 'e', 'E'], isPlain c = true :=
    List.all_eq_true.1 (by decide)
  rw [isNumeric, Bool.or_eq_true] at h
  rcases h with h | h
  · rw [Text.isDigit, Text.digitValue?, Option.isSome_map, List.find?_isSome] at h
    obtain ⟨z, hz, hc⟩ := h
    simp only [Bool.and_eq_true, decide_eq_true_eq] at hc
    have hbounds := hzeros z hz
    exact isPlain_of_toNat (by omega) (by omega)
  · exact hsigns c (List.contains_iff_mem.1 h)

theorem Tame.of_plain {text : List Char} (h : ∀ c ∈ text, isPlain c = true) : Tame text := by
  induction text with
  | nil => exact .nil
  | cons c cs ih =>
    obtain ⟨hc, hcs⟩ := List.forall_mem_cons.1 h
    simp only [isPlain, Bool.and_eq_true, Bool.not_eq_true', bne_iff_ne] at hc
    obtain ⟨⟨⟨hcontrol, hhash⟩, hdouble⟩, hsingle⟩ := hc
    refine ⟨?_, List.forall_mem_cons.2 ⟨hcontrol, (ih hcs).visible⟩⟩
    rw [Sealed, scan_cons, Reading.next]
    simp only [beq_eq_false_iff_ne.2 hhash, beq_eq_false_iff_ne.2 hdouble, beq_eq_false_iff_ne.2 hsingle]
    exact (ih hcs).isSealed

theorem Tame.of_name {name : String} (h : ∀ c ∈ name.toList, isNameChar c = true) : Tame name.toList :=
  .of_plain fun c hc => isPlain_of_isNameChar (h c hc)

theorem mem_of_mem_splitSign {token : List Char} {c : Char}
    (h : c ∈ (Literal.splitSign token).1 ++ (Literal.splitSign token).2) : c ∈ token := by
  rw [Literal.splitSign.eq_def] at h
  split at h
  · exact h
  · exact (List.dropWhile_sublist _).subset h

theorem isNumeric_normalInt {token : List Char} (h : ∀ c ∈ token, isNumeric c = true) :
    ∀ c ∈ Literal.normalInt token, isNumeric c = true := by
  have hsplit : ∀ c ∈ (Literal.splitSign token).1 ++ (Literal.splitSign token).2, isNumeric c = true :=
    fun c hc => h c (mem_of_mem_splitSign hc)
  obtain ⟨hsign, hdigits⟩ := List.forall_mem_append.1 hsplit
  rw [Literal.normalInt]
  simp only
  split
  · exact List.forall_mem_singleton.2 (by decide)
  · exact List.forall_mem_append.2
      ⟨hsign, fun c hc => hdigits c ((List.dropWhile_sublist _).subset hc)⟩

theorem isNumeric_normalFloat {token : List Char} (h : ∀ c ∈ token, isNumeric c = true) :
    ∀ c ∈ Literal.normalFloat token, isNumeric c = true := by
  have hsplit : ∀ c ∈ (Literal.splitSign token).1 ++ (Literal.splitSign token).2, isNumeric c = true :=
    fun c hc => h c (mem_of_mem_splitSign hc)
  obtain ⟨hsign, hrest⟩ := List.forall_mem_append.1 hsplit
  rw [Literal.normalFloat]
  simp only
  generalize hbody : (if (Literal.splitSign token).2.head? == some '.' then
    '0' :: (Literal.splitSign token).2 else (Literal.splitSign token).2) = body
  have hbody' : ∀ c ∈ body, isNumeric c = true := by
    rw [← hbody]
    split
    · exact List.forall_mem_cons.2 ⟨by decide, hrest⟩
    · exact hrest
  have hmantissa : ∀ c ∈ body.takeWhile fun c => !Literal.isExponentMark c, isNumeric c = true :=
    fun c hc => hbody' c ((List.takeWhile_sublist _).subset hc)
  have hpadded : ∀ c ∈ (if (body.takeWhile fun c => !Literal.isExponentMark c).getLast? == some '.' then
      (body.takeWhile fun c => !Literal.isExponentMark c) ++ ['0']
      else body.takeWhile fun c => !Literal.isExponentMark c), isNumeric c = true := by
    split
    · exact List.forall_mem_append.2 ⟨hmantissa, List.forall_mem_singleton.2 (by decide)⟩
    · exact hmantissa
  split
  · exact List.forall_mem_append.2 ⟨hsign, hpadded⟩
  · next e exponent hexponent =>
    have hafter : ∀ c ∈ exponent, isNumeric c = true := fun c hc =>
      hbody' c ((List.dropWhile_sublist _).subset (hexponent ▸ List.mem_cons_of_mem e hc))
    exact List.forall_mem_append.2
      ⟨List.forall_mem_append.2 ⟨hsign, hpadded⟩, List.forall_mem_cons.2 ⟨by decide, hafter⟩⟩

/-! ### Quoted text -/

theorem lt_of_isControl {c : Char} (h : Text.isControl c = true) : c.toNat < 0xA0 := by
  simp only [Text.isControl, Bool.or_eq_true, Bool.and_eq_true, decide_eq_true_eq] at h
  omega

structure Within (q : Char) (text : List Char) : Prop where
  scan_eq : scan (.inside q) text = some (.inside q)
  visible : ∀ c ∈ text, Text.isControl c = false

namespace Within

theorem nil (q : Char) : Within q [] :=
  ⟨rfl, nofun⟩

theorem append {q : Char} {xs ys : List Char} (hx : Within q xs) (hy : Within q ys) : Within q (xs ++ ys) :=
  ⟨by rw [scan_append, hx.scan_eq]; exact hy.scan_eq, List.forall_mem_append.2 ⟨hx.visible, hy.visible⟩⟩

theorem escape {q c : Char} (hc : Text.isControl c = false) : Within q ['\\', c] :=
  ⟨rfl, List.forall_mem_cons.2 ⟨(by decide : Text.isControl '\\' = false), List.forall_mem_singleton.2 hc⟩⟩

end Within

section Quotes
variable {q : Char} (hq : q = '"' ∨ q = '\'')
include hq

theorem within_quotedChar (c : Char) : Within q (Literal.quotedChar q c) := by
  rw [Literal.quotedChar]
  split
  · next hc =>
    rw [eq_of_beq hc]
    exact .escape (by rcases hq with rfl | rfl <;> decide)
  · next hc =>
    rw [Literal.escapeChar]
    split_ifs with h₁ h₂ h₃ h₄ h₅
    · exact .escape (by decide)
    · exact .escape (by decide)
    · exact .escape (by decide)
    · exact .escape (by decide)
    · have hbyte : ∀ n < 0xA0, (Text.hexByte n).all (fun c => !Text.isControl c) = true ∧
          scan (.inside '"') (Text.hexByte n) = some (.inside '"') ∧
            scan (.inside '\'') (Text.hexByte n) = some (.inside '\'') := by decide +kernel
      obtain ⟨hall, hdouble, hsingle⟩ := hbyte c.toNat (lt_of_isControl h₅)
      have hscan : scan (.inside q) (Text.hexByte c.toNat) = some (.inside q) := by
        rcases hq with rfl | rfl
        · exact hdouble
        · exact hsingle
      exact .append (.escape (by decide)) ⟨hscan, fun c hc => by simpa using List.all_eq_true.1 hall c hc⟩
    · have hclose : (c == '\\') = false ∧ (c == q) = false := ⟨by simpa using h₁, by simpa using hc⟩
      exact ⟨by simp [scan, Reading.next, hclose], List.forall_mem_singleton.2 (Bool.eq_false_iff.2 h₅)⟩

theorem tame_quoted (text : List Char) : Tame (Literal.quoted q text) := by
  have hinner : Within q (text.flatMap (Literal.quotedChar q)) := by
    induction text with
    | nil => exact .nil q
    | cons c cs ih => exact (within_quotedChar hq c).append ih
  have hopen : Reading.code.next q = some (.inside q) := by rcases hq with rfl | rfl <;> decide
  have hclose : scan (.inside q) [q] = some .code := by rcases hq with rfl | rfl <;> decide
  have hquote : Text.isControl q = false := by rcases hq with rfl | rfl <;> decide
  refine ⟨?_, List.forall_mem_append.2
    ⟨List.forall_mem_cons.2 ⟨hquote, hinner.visible⟩, List.forall_mem_singleton.2 hquote⟩⟩
  rw [Sealed, Literal.quoted, List.cons_append, scan_cons, hopen, Option.bind_some, scan_append,
    hinner.scan_eq]
  exact hclose

end Quotes

/-! ### Typed text -/

theorem tame_infer (raw : List Char) : Tame (Literal.infer raw).text := by
  rw [Literal.infer]
  split_ifs with hempty hint hfloat htrue hfalse
  · exact .of_plain (List.all_eq_true.1 (by decide))
  · have hnumeric : ∀ c ∈ Text.trim raw, isNumeric c = true := isNumeric_of_dropSign fun c hc => by
      simp only [Literal.isInt, Literal.isDigits, Bool.and_eq_true, List.all_eq_true] at hint
      exact isNumeric_of_isDigit (hint.2 c hc)
    exact .of_plain fun c hc => isPlain_of_isNumeric (isNumeric_normalInt hnumeric c hc)
  · have hnumeric := isNumeric_of_dropSign (isNumeric_of_isFloat hfloat).1
    exact .of_plain fun c hc => isPlain_of_isNumeric (isNumeric_normalFloat hnumeric c hc)
  · exact .of_plain (List.all_eq_true.1 (by decide))
  · exact .of_plain (List.all_eq_true.1 (by decide))
  · split
    · exact tame_quoted (Or.inl rfl) _
    · split
      · exact tame_quoted (Or.inr rfl) _
      · exact tame_quoted (Or.inl rfl) _

theorem tame_token (s : Scope) (raw : String) : Tame (token s raw).toList := by
  rw [token]
  cases hname : s.reference? raw with
  | none =>
    rw [literalText, String.toList_ofList]
    exact tame_infer _
  | some name =>
    simp only [Scope.reference?] at hname
    split at hname
    · split at hname
      · obtain rfl := Option.some.inj hname
        exact .of_name (isNameChar_of_mem_identifier (List.all_eq_true.1 (by decide)))
      · cases hname
    · cases hname

theorem tame_arguments (s : Scope) (raw : String) : Tame (arguments s raw).toList := by
  have hjoin : ∀ parts : List String, Tame (", ".intercalate (parts.map (token s))).toList := by
    intro parts
    induction parts with
    | nil => exact .nil
    | cons p parts ih =>
      cases parts with
      | nil => exact tame_token s p
      | cons p' parts =>
        rw [List.map_cons, List.map_cons, String.intercalate_cons_cons, String.toList_append,
          String.toList_append]
        exact ((tame_token s p).append (.of_plain (List.all_eq_true.1 (by decide)))).append ih
  rw [arguments]
  split
  · exact .nil
  · simp only
    split
    · exact hjoin _
    · exact tame_token s raw

/-! ### Pieces -/

namespace Piece

def Firm : Piece → Prop
  | .fixed text => Tame text.toList
  | .named name => ∀ c ∈ name.toList, isNameChar c = true
  | _ => True

def Shows : Piece → Prop
  | .fixed text => text ≠ ""
  | .token _ => True
  | _ => False

end Piece

def Clean (known : List String) : Prop :=
  ∀ name ∈ known, ∀ c ∈ name.toList, isNameChar c = true

section Pieces
variable {o : Options} {known : List String} {p : Piece} {ps : List Piece}

theorem text_ne_nil (h : p.Shows) (known : List String) : (p.text o known).toList ≠ [] := by
  cases p with
  | fixed text => exact mt String.toList_eq_nil_iff.1 h
  | token raw => exact (operand_token _ raw).ne_nil
  | named _ | loop | arguments _ => exact h.elim

theorem spell_ne_nil (h : ∃ p ∈ ps, p.Shows) (known : List String) : (spell o known ps).toList ≠ [] := by
  obtain ⟨p, hp, hshows⟩ := h
  obtain ⟨before, after, rfl⟩ := List.append_of_mem hp
  rw [spell_append, spell_cons, String.toList_append, String.toList_append]
  have htext := text_ne_nil (o := o) hshows (learn o known before)
  exact List.append_ne_nil_of_right_ne_nil _ (List.append_ne_nil_of_left_ne_nil htext _)

variable (hv : ∀ c ∈ o.loopVariable.toList, isNameChar c = true)
include hv

theorem tame_text (hp : p.Firm) (hk : Clean known) :
    Tame (p.text o known).toList ∧ Clean (known ++ p.names o known) := by
  have hclean : ∀ {name : String}, (∀ c ∈ name.toList, isNameChar c = true) →
      Tame name.toList ∧ Clean (known ++ [name]) := fun h =>
    ⟨.of_name h, List.forall_mem_append.2 ⟨hk, List.forall_mem_singleton.2 h⟩⟩
  cases p with
  | fixed text => exact ⟨hp, by simpa using hk⟩
  | named name => exact hclean hp
  | loop =>
    have hname : ∀ c ∈ (known.head?.getD o.loopVariable).toList, isNameChar c = true := by
      cases hhead : known.head? with
      | none => exact hv
      | some name => exact hk name (List.mem_of_head? hhead)
    exact hclean hname
  | token raw => exact ⟨tame_token _ raw, by simpa using hk⟩
  | arguments raw => exact ⟨tame_arguments _ raw, by simpa using hk⟩

theorem tame_spell (hps : ∀ p ∈ ps, p.Firm) (hk : Clean known) :
    Tame (spell o known ps).toList ∧ Clean (learn o known ps) := by
  induction ps generalizing known with
  | nil => exact ⟨.nil, hk⟩
  | cons p ps ih =>
    obtain ⟨hp, hrest⟩ := List.forall_mem_cons.1 hps
    obtain ⟨htext, hnames⟩ := tame_text hv hp hk
    obtain ⟨hspell, hlearn⟩ := ih hrest hnames
    rw [spell_cons, String.toList_append]
    exact ⟨htext.append hspell, hlearn⟩

end Pieces

/-! ### Lines -/

def note (kind : Kind) : String :=
  "pass  # '" ++ kind.name ++ "' block is not attached to an if"

def IsNote (text : List Char) : Prop :=
  text = (note .elifBranch).toList ∨ text = (note .elseBranch).toList

structure Kept (text : List Char) : Prop where
  ne_nil : text ≠ []
  visible : ∀ c ∈ text, Text.isControl c = false
  sealed_or : IsNote text ∨ Sealed text

def DraftLine.Proper (line : DraftLine) : Prop :=
  (∃ kind : Kind, (kind = .elifBranch ∨ kind = .elseBranch) ∧ line.pieces = [.fixed (note kind)]) ∨
    (∀ p ∈ line.pieces, p.Firm) ∧ ∃ p ∈ line.pieces, p.Shows

section Lines
variable {o : Options} {known : List String}
  (hv : ∀ c ∈ o.loopVariable.toList, isNameChar c = true)
include hv

theorem kept_spell {line : DraftLine} (h : line.Proper) (hk : Clean known) :
    Kept (spell o known line.pieces).toList ∧ Clean (learn o known line.pieces) := by
  rcases h with ⟨kind, hkind, hpieces⟩ | ⟨hfirm, hshows⟩
  · rw [hpieces]
    simp only [spell_cons, spell_nil, learn_cons, learn_nil, Piece.text, Piece.names, List.append_nil,
      String.append_empty]
    have hvisible : (note kind).toList.all (fun c => !Text.isControl c) = true := by
      rcases hkind with rfl | rfl <;> decide
    refine ⟨⟨?_, fun c hc => by simpa using List.all_eq_true.1 hvisible c hc, Or.inl ?_⟩, hk⟩
    · rcases hkind with rfl | rfl <;> decide
    · exact hkind.imp (fun h => by rw [h]) fun h => by rw [h]
  · obtain ⟨htame, hlearn⟩ := tame_spell hv hfirm hk
    exact ⟨⟨spell_ne_nil hshows known, htame.visible, Or.inr htame.isSealed⟩, hlearn⟩

theorem kept_spellLines {lines : List DraftLine} (h : ∀ l ∈ lines, l.Proper) (hk : Clean known) :
    ∀ line ∈ spellLines o known lines, Kept line.text.toList := by
  induction lines generalizing known with
  | nil => exact nofun
  | cons l ls ih =>
    obtain ⟨hl, hrest⟩ := List.forall_mem_cons.1 h
    obtain ⟨hkept, hlearn⟩ := kept_spell hv hl hk
    exact List.forall_mem_cons.2 ⟨hkept, ih hrest hlearn⟩

end Lines

/-! ### Drafts -/

theorem firm_fixed {text : String} (h : text.toList.all isPlain = true) : Piece.Firm (.fixed text) :=
  Tame.of_plain (List.all_eq_true.1 h)

namespace Draft

structure Firm (d : Draft) : Prop where
  value : ∀ p ∈ d.value, p.Firm
  statement : ∀ level, ∀ l ∈ d.statement level, l.Proper
  branch : ∀ level, ∀ l ∈ d.branch level, l.Proper

section Slots
variable {slots : List (Slot Draft)} (h : ∀ d ∈ slots.flatMap Slot.children, d.Firm)
include h

theorem firm_getD {pieces : Draft → List Piece} (hpieces : ∀ d : Draft, d.Firm → ∀ p ∈ pieces d, p.Firm)
    (name : String) {fallback : List Piece} (hfallback : ∀ p ∈ fallback, p.Firm) :
    ∀ p ∈ (slotPieces pieces name slots).getD fallback, p.Firm := by
  rw [slotPieces]
  rcases hcontent : contentOf name slots with _ | ⟨_ | d, literal⟩ | entries
  · exact hfallback
  · dsimp only
    split
    · exact hfallback
    · exact List.forall_mem_singleton.2 trivial
  · exact hpieces d (h d (mem_children_of_contentOf hcontent (List.mem_singleton_self d)))
  · exact hfallback

theorem firm_slot (name : String) {fallback : String} (hfallback : fallback.toList.all isPlain = true) :
    ∀ p ∈ slot slots name fallback, p.Firm :=
  firm_getD h (fun _ hd => hd.value) name (List.forall_mem_singleton.2 (firm_fixed hfallback))

theorem firm_printedPieces (face : Face) : ∀ p ∈ printedPieces value face slots, p.Firm := by
  rw [printedPieces]
  rcases hcontent : contentOf "value" slots with _ | ⟨_ | d, literal⟩ | entries
  · exact List.forall_mem_singleton.2 trivial
  · exact List.forall_mem_singleton.2 trivial
  · exact (h d (mem_children_of_contentOf hcontent (List.mem_singleton_self d))).value
  · exact List.forall_mem_singleton.2 trivial

theorem firm_range : ∀ p ∈ range slots, p.Firm := by
  have hcomma : Piece.Firm (.fixed ", ") := firm_fixed (by decide)
  have hstart : ∀ p ∈ slot slots "start" "0", p.Firm := firm_slot h "start" (by decide)
  have hend : ∀ p ∈ slot slots "end" "0", p.Firm := firm_slot h "end" (by decide)
  have hstep : ∀ p ∈ slot slots "step" "1", p.Firm := firm_slot h "step" (by decide)
  rw [range]
  split
  · exact List.forall_mem_append.2 ⟨hstart, List.forall_mem_cons.2 ⟨hcomma,
      List.forall_mem_append.2 ⟨hend, List.forall_mem_cons.2 ⟨hcomma, hstep⟩⟩⟩⟩
  · split
    · exact List.forall_mem_append.2 ⟨hstart, List.forall_mem_cons.2 ⟨hcomma, hend⟩⟩
    · exact hstart

theorem firm_valueOf (face : Face) : ∀ p ∈ valueOf face slots, p.Firm := by
  have hoperand : ∀ d : Draft, d.Firm → ∀ p ∈ d.operand, p.Firm := by
    intro d hd
    rw [operand]
    split
    · exact List.forall_mem_cons.2 ⟨firm_fixed (by decide), List.forall_mem_append.2
        ⟨hd.value, List.forall_mem_singleton.2 (firm_fixed (by decide))⟩⟩
    · exact hd.value
  have hslot : ∀ name, ∀ p ∈ operandSlot slots name, p.Firm := fun name =>
    firm_getD h hoperand name (List.forall_mem_singleton.2 (firm_fixed (by decide)))
  have hsymbol : ∀ op : Operator, Piece.Firm (.fixed (" " ++ op.symbol ++ " ")) := by
    intro op
    cases op <;> exact firm_fixed (by decide)
  rw [valueOf]
  split
  · exact List.forall_mem_append.2 ⟨hslot "left", List.forall_mem_cons.2 ⟨hsymbol _, hslot "right"⟩⟩
  · exact List.forall_mem_singleton.2 (isNameChar_of_mem_identifier (List.all_eq_true.1 (by decide)))
  · exact List.forall_mem_singleton.2 (firm_fixed (by decide))

theorem proper_bodyLines (level : Nat) : ∀ l ∈ bodyLines level slots, l.Proper := by
  intro l hl
  obtain ⟨entry, hentry, hl⟩ := List.mem_flatMap.1 hl
  cases entry with
  | block d =>
    have hd := h d (mem_children_of_bodyOf (List.mem_filterMap.2 ⟨_, hentry, rfl⟩))
    exact hd.statement level l hl
  | line text =>
    simp only [entryLines] at hl
    split at hl
    · cases hl
    · rw [List.mem_singleton.1 hl]
      exact Or.inr ⟨List.forall_mem_singleton.2 trivial, _, List.mem_singleton_self _, trivial⟩

theorem proper_suite (level : Nat) : ∀ l ∈ suite level slots, l.Proper := by
  rw [suite]
  split
  · refine List.forall_mem_singleton.2 (Or.inr ⟨?_, _, List.mem_singleton_self _, (by decide : "pass" ≠ "")⟩)
    exact List.forall_mem_singleton.2 (firm_fixed (by decide))
  · exact proper_bodyLines h level

end Slots

theorem proper_fixed {text : String} (htext : Piece.Firm (.fixed text)) (hne : text ≠ "") {ps : List Piece}
    (hps : ∀ p ∈ ps, p.Firm) (level : Nat) : DraftLine.Proper ⟨level, .fixed text :: ps⟩ :=
  Or.inr ⟨List.forall_mem_cons.2 ⟨htext, hps⟩, _, List.mem_cons_self, hne⟩

theorem proper_between {before after : String} (hbefore : Piece.Firm (.fixed before)) (hne : before ≠ "")
    (hafter : Piece.Firm (.fixed after)) {ps : List Piece} (hps : ∀ p ∈ ps, p.Firm) (level : Nat) :
    DraftLine.Proper ⟨level, .fixed before :: ps ++ [.fixed after]⟩ :=
  proper_fixed hbefore hne (List.forall_mem_append.2 ⟨hps, List.forall_mem_singleton.2 hafter⟩) level

section Blocks
variable {slots : List (Slot Draft)} (h : ∀ d ∈ slots.flatMap Slot.children, d.Firm)
include h

theorem firm_condition : ∀ p ∈ slot slots "condition" "False", p.Firm :=
  firm_slot h "condition" (by decide)

theorem proper_branchOf (level : Nat) (face : Face) : ∀ l ∈ branchOf level face slots, l.Proper := by
  refine List.forall_mem_cons.2 ⟨?_, proper_suite h (level + 1)⟩
  split
  · exact proper_between (firm_fixed (by decide)) (by decide) (firm_fixed (by decide)) (firm_condition h)
      level
  · exact proper_fixed (firm_fixed (by decide)) (by decide) (List.forall_mem_nil _) level

theorem proper_statementOf (level : Nat) (face : Face) {chain : List Draft} (hchain : ∀ d ∈ chain, d.Firm) :
    ∀ l ∈ statementOf level face slots chain, l.Proper := by
  have hcondition := firm_condition h
  have hsuite := proper_suite h (level + 1)
  have hname : ∀ fallback, fallback = "var" ∨ fallback = "" →
      ∀ c ∈ (identifier face.name fallback).toList, isNameChar c = true := by
    rintro fallback (rfl | rfl) <;>
      exact isNameChar_of_mem_identifier (List.all_eq_true.1 (by decide))
  rw [statementOf]
  rcases hk : face.kind with _ | _ | _ | _ | _ | _ | _ | _ | _
  case assignment =>
    have hgiven : ∀ p ∈ face.override.elim [Piece.fixed "None"] (fun raw => [.token raw]), p.Firm := by
      cases face.override with
      | none => exact List.forall_mem_singleton.2 (firm_fixed (by decide))
      | some raw => exact List.forall_mem_singleton.2 trivial
    have hvalue := firm_getD h (fun _ hd => hd.value) "value" hgiven
    refine List.forall_mem_singleton.2 (Or.inr ⟨?_, .fixed " = ", by simp, (by decide : " = " ≠ "")⟩)
    exact List.forall_mem_cons.2 ⟨hname "var" (Or.inl rfl), List.forall_mem_cons.2
      ⟨firm_fixed (by decide), hvalue⟩⟩
  case operation =>
    refine List.forall_mem_singleton.2 (Or.inr ⟨firm_valueOf h face, ?_⟩)
    refine ⟨.fixed (" " ++ (face.operator.getD .add).symbol ++ " "), by simp [valueOf, hk], ?_⟩
    have hne : ∀ op : Operator, " " ++ op.symbol ++ " " ≠ "" := by rintro (_ | _) <;> decide
    exact hne _
  case print =>
    exact List.forall_mem_singleton.2 (proper_between (firm_fixed (by decide)) (by decide)
      (firm_fixed (by decide)) (firm_printedPieces h face) level)
  case ifBranch =>
    have hhead : DraftLine.Proper
        ⟨level, .fixed "if " :: slot slots "condition" "False" ++ [.fixed ":"]⟩ :=
      proper_between (firm_fixed (by decide)) (by decide) (firm_fixed (by decide)) hcondition level
    refine List.forall_mem_append.2 ⟨List.forall_mem_cons.2 ⟨hhead, hsuite⟩, fun l hl => ?_⟩
    obtain ⟨d, hd, hl⟩ := List.mem_flatMap.1 hl
    exact (hchain d hd).branch level l hl
  case elifBranch => exact List.forall_mem_singleton.2 (Or.inl ⟨.elifBranch, Or.inl rfl, rfl⟩)
  case elseBranch => exact List.forall_mem_singleton.2 (Or.inl ⟨.elseBranch, Or.inr rfl, rfl⟩)
  case whileLoop =>
    exact List.forall_mem_cons.2 ⟨proper_between (firm_fixed (by decide)) (by decide)
      (firm_fixed (by decide)) hcondition level, hsuite⟩
  case doWhileLoop =>
    refine List.forall_mem_append.2 ⟨List.forall_mem_cons.2 ⟨?_, proper_bodyLines h (level + 1)⟩,
      List.forall_mem_singleton.2 ?_⟩
    · exact proper_fixed (firm_fixed (by decide)) (by decide) (List.forall_mem_nil _) level
    · exact proper_between (firm_fixed (by decide)) (by decide) (firm_fixed (by decide)) hcondition
        (level + 1)
  case forLoop =>
    have hloop : (loopPiece face).Firm := by
      rw [loopPiece]
      split
      · trivial
      · exact hname "" (Or.inr rfl)
    refine List.forall_mem_cons.2 ⟨?_, hsuite⟩
    exact proper_between (firm_fixed (by decide)) (by decide) (firm_fixed (by decide))
      (List.forall_mem_cons.2 ⟨hloop, List.forall_mem_cons.2 ⟨firm_fixed (by decide), firm_range h⟩⟩) level

theorem firm_ofFace (face : Face) {chain : List Draft} (hchain : ∀ d ∈ chain, d.Firm) :
    (ofFace face slots chain).Firm where
  value := firm_valueOf h face
  statement level := proper_statementOf h level face hchain
  branch level := proper_branchOf h level face

end Blocks
end Draft

theorem firm_draft (t : Tree) : t.draft.Firm := by
  induction t using Tree.induction with
  | step t ih =>
    obtain ⟨id, face, slots, chain⟩ := t
    rw [Tree.draft_node]
    refine Draft.firm_ofFace (fun d hd => ?_) face (List.forall_mem_map.2 fun t ht => ?_)
    · obtain ⟨s', hs', hd⟩ := List.mem_flatMap.1 hd
      obtain ⟨s, hs, rfl⟩ := List.mem_map.1 hs'
      rw [Slot.children_map] at hd
      obtain ⟨t, ht, rfl⟩ := List.mem_map.1 hd
      exact ih t (Tree.mem_children.2 (Or.inl ⟨s, hs, ht⟩))
    · exact ih t (Tree.mem_children.2 (Or.inr ht))

/-! ### Programs -/

theorem kept_forestLines {o : Options} (hv : ∀ c ∈ o.loopVariable.toList, isNameChar c = true)
    (ts : List Tree) : ∀ line ∈ (forestLines o {} ts).2, Kept line.text.toList := by
  have hproper : ∀ l ∈ Tree.draftLines ts, l.Proper := by
    intro l hl
    obtain ⟨t, -, hl⟩ := List.mem_flatMap.1 hl
    exact (firm_draft t).statement 0 l hl
  have hlines : forestLines o {} ts = spelledLines o [] (Tree.draftLines ts) := forestLines_draft ts []
  rw [hlines]
  exact kept_spellLines hv hproper nofun

section Rows
variable {o : Options} {lines : List Line} (h : ∀ line ∈ lines, Kept line.text.toList)
include h

theorem visible_render : ∀ line ∈ lines, ∀ x ∈ (line.render o).toList, Text.isControl x = false := by
  intro line hl x hx
  rw [toList_render] at hx
  rcases List.mem_append.1 hx with hx | hx
  · rw [(List.mem_replicate.1 hx).2]
    decide
  · exact (h line hl).visible x hx

theorem count_newline_render : (render o lines).toList.count '\n' = lines.length := by
  rw [toList_render_lines fun line hl => (h line hl).ne_nil]
  have hvisible := visible_render (o := o) h
  clear h
  induction lines with
  | nil => rfl
  | cons line lines ih =>
    obtain ⟨hline, hrest⟩ := List.forall_mem_cons.1 hvisible
    have hnone : (line.render o).toList.count '\n' = 0 := by
      refine List.count_eq_zero.2 fun hm => ?_
      exact absurd (hline _ hm) (by decide)
    simp [List.count_append, hnone, ih hrest]

theorem sealed_rows : ∀ row ∈ rows (render o lines), IsNote (row.dropWhile (· == ' ')) ∨ Sealed row := by
  have hunbroken : ∀ line ∈ lines, '\n' ∉ line.text.toList := fun line hl hm =>
    absurd ((h line hl).visible _ hm) (by decide)
  rw [rows_render (fun line hl => (h line hl).ne_nil) hunbroken]
  refine List.forall_mem_map.2 fun line hl => ?_
  have hspaces : Tame (List.replicate (line.level * o.indentWidth) ' ') :=
    .of_plain fun c hc => by rw [(List.mem_replicate.1 hc).2]; decide
  rw [toList_render]
  refine (h line hl).sealed_or.imp (fun hnote => ?_) fun hsealed => ?_
  · have hdrop : (List.replicate (line.level * o.indentWidth) ' ' ++ line.text.toList).dropWhile (· == ' ') =
        line.text.toList := by
      rw [List.dropWhile_append_of_pos (by simp +contextual [List.mem_replicate])]
      rcases hnote with he | he <;> rw [he] <;> rfl
    rwa [hdrop]
  · exact (hspaces.append ⟨hsealed, (h line hl).visible⟩).isSealed

end Rows
end BlockCanvas.Python

namespace BlockCanvas.Canvas
open Python

/-- Nothing that is typed into a canvas gets out of its token: the text of its program has a row for each
line, no other control characters, and no open string or comment at the end of a row. -/
theorem program_sealed (c : Canvas) {o : Options} (hv : o.loopVariable.toList.all isNameChar = true) :
    let source := (c.program o).source.toList
    (source = [] ∨ source.getLast? = some '\n') ∧
      source.count '\n' = (forestLines o {} (c.forest.map Root.tree)).2.length ∧
      (∀ x ∈ source, Text.isControl x = true → x = '\n') ∧
      ∀ row ∈ rows (c.program o).source, IsNote (row.dropWhile (· == ' ')) ∨ Sealed row := by
  have hkept := kept_forestLines (List.all_eq_true.1 hv) (c.forest.map Root.tree)
  have hsource : (c.program o).source = render o (forestLines o {} (c.forest.map Root.tree)).2 := rfl
  generalize (forestLines o {} (c.forest.map Root.tree)).2 = lines at hkept hsource
  have hlines := toList_render_lines (o := o) fun line hl => (hkept line hl).ne_nil
  rw [hsource]
  refine ⟨?_, count_newline_render hkept, ?_, sealed_rows hkept⟩
  · rw [hlines]
    rcases List.eq_nil_or_concat lines with rfl | ⟨earlier, line, rfl⟩
    · exact Or.inl rfl
    · right
      rw [List.concat_eq_append, List.flatMap_append, List.flatMap_singleton, ← List.append_assoc]
      exact List.getLast?_concat
  · rw [hlines]
    intro x hx hcontrol
    obtain ⟨line, hl, hx⟩ := List.mem_flatMap.1 hx
    rcases List.mem_append.1 hx with hx | hx
    · rw [visible_render hkept line hl x hx] at hcontrol
      exact nomatch hcontrol
    · exact List.mem_singleton.1 hx

theorem program_sealed_hostile :
    let edits : List Edit :=
      [.instantiate .assignment .origin, .setName 1 "it's #1\n", .setOverride 1 (some "\"\\\" # \x07"),
        .instantiate .elseBranch .origin, .instantiate .forLoop .origin, .setName 3 " ",
        .setLiteral ⟨3, 0⟩ "'", .pushLine ⟨3, 3⟩ "\"\n'#"]
    let c := Edit.run (withBounds ⟨0, 0, 800, 600⟩) edits
    let source := (c.program {}).source
    source =
        "it_s__1 = \"\\\"\\\\\\\" # \\x07\"\n" ++ "pass  # 'else' block is not attached to an if\n" ++
          "for it_s__1 in range('\\''):\n" ++ "    \"\\\"\\n'#\"\n" ∧
      (source.toList = [] ∨ source.toList.getLast? = some '\n') ∧
      source.toList.count '\n' = (forestLines {} {} (c.forest.map Root.tree)).2.length ∧
      (∀ x ∈ source.toList, Text.isControl x = true → x = '\n') ∧
      ∀ row ∈ rows source, IsNote (row.dropWhile (· == ' ')) ∨ Sealed row := by
  intro edits c source
  exact ⟨by decide +kernel, program_sealed c (o := {}) (by decide)⟩

end BlockCanvas.Canvas
