import BlockCanvas.Proofs.LegalTree
import BlockCanvas.Proofs.Sealing

/-!
Operations read back. The text of an operation is that of a formula, which has each nested operation in
parentheses; a reader who knows no precedence, only operands, symbols and parentheses, finds this formula in
it and no other (`Formula.reads_iff`). What is typed cannot mislead the reader, since it is one atom.
-/
namespace BlockCanvas.Python

inductive Formula where
  | atom (text : String)
  | apply (op : Operator) (left right : Formula)
  deriving DecidableEq, Repr

def Formula.text : Formula → Bool → String
  | .atom text, _ => text
  | .apply op left right, operand =>
    let inner := left.text true ++ " " ++ op.symbol ++ " " ++ right.text true
    if operand then "(" ++ inner ++ ")" else inner

/-! ### Atoms -/

def isQuote (c : Char) : Bool :=
  c == '"' || c == '\''

def isRun (c : Char) : Bool :=
  c != ' ' && c != '(' && c != ')'

def before (text : List Char) (r : List Char × List Char) : List Char × List Char :=
  (text ++ r.1, r.2)

def closing? (quote : Char) : List Char → Option (List Char × List Char)
  | [] => none
  | '\\' :: c :: cs => (closing? quote cs).map (before ['\\', c])
  | c :: cs => if c == quote then some ([c], cs) else (closing? quote cs).map (before [c])

def atom? : List Char → Option (List Char × List Char)
  | [] => none
  | c :: cs =>
    if isQuote c then (closing? c cs).map (before [c])
    else if isRun c then some ((c :: cs).takeWhile isRun, (c :: cs).dropWhile isRun)
    else none

def Ends (rest : List Char) : Prop :=
  ∀ c ∈ rest.head?, isRun c = false

def IsAtom (text : List Char) : Prop :=
  ∀ rest, Ends rest → atom? (text ++ rest) = some (text, rest)

theorem isAtom_of_forall {p : Char → Bool} (hp : [' ', '(', ')', '"', '\''].all (fun c => !p c) = true)
    {text : List Char} (hne : text ≠ []) (h : ∀ c ∈ text, p c = true) : IsAtom text := by
  simp only [List.all_cons, List.all_nil, Bool.and_true, Bool.and_eq_true, Bool.not_eq_true'] at hp
  obtain ⟨hspace, hopen, hclose, hdouble, hsingle⟩ := hp
  have hother : ∀ x, p x = false → ∀ c ∈ text, c ≠ x := by
    rintro x hx c hc rfl
    exact absurd (h c hc) (by simp [hx])
  have hrun : ∀ c ∈ text, isRun c = true := fun c hc => by
    simp [isRun, hother _ hspace c hc, hother _ hopen c hc, hother _ hclose c hc]
  obtain ⟨c, cs, rfl⟩ := List.exists_cons_of_ne_nil hne
  have hquote : isQuote c = false := by
    simp [isQuote, hother _ hdouble c List.mem_cons_self, hother _ hsingle c List.mem_cons_self]
  intro rest hrest
  rw [List.cons_append, atom?, if_neg (by simp [hquote]), if_pos (hrun c List.mem_cons_self),
    ← List.cons_append, List.takeWhile_append_of_pos hrun, List.dropWhile_append_of_pos hrun]
  cases rest with
  | nil => simp
  | cons x rest => simp [hrest x rfl]

theorem isAtom_of_nameChars {text : List Char} (hne : text ≠ []) (h : ∀ c ∈ text, isNameChar c = true) :
    IsAtom text :=
  isAtom_of_forall (by decide +kernel) hne h

theorem isAtom_of_numeric {text : List Char} (hne : text ≠ []) (h : ∀ c ∈ text, isNumeric c = true) :
    IsAtom text :=
  isAtom_of_forall (by decide +kernel) hne h

/-! ### Quoted text -/

theorem closing?_cons {q c : Char} (hslash : c ≠ '\\') (hq : c ≠ q) (rest : List Char) :
    closing? q (c :: rest) = (closing? q rest).map (before [c]) := by
  rw [closing?.eq_def]
  simp [hslash, hq]

theorem closing?_append {q : Char} {inner : List Char} (h : ∀ c ∈ inner, c ≠ '\\' ∧ c ≠ q)
    (rest : List Char) : closing? q (inner ++ rest) = (closing? q rest).map (before inner) := by
  induction inner with
  | nil => exact Option.map_id'.symm
  | cons c cs ih =>
    obtain ⟨⟨hslash, hq⟩, hcs⟩ := List.forall_mem_cons.1 h
    rw [List.cons_append, closing?_cons hslash hq, ih hcs, Option.map_map]
    rfl

theorem closing?_quotedChar {q : Char} (hq : isQuote q = true) (c : Char) (rest : List Char) :
    closing? q (Literal.quotedChar q c ++ rest) =
      (closing? q rest).map (before (Literal.quotedChar q c)) := by
  rw [Literal.quotedChar]
  split
  · rfl
  · next hc =>
    rw [Literal.escapeChar]
    split_ifs with hslash hnewline hreturn htab hcontrol
    · rfl
    · rfl
    · rfl
    · rfl
    · have hbyte : ∀ n < 0xA0, (Text.hexByte n).all (fun x => x != '\\' && !isQuote x) = true := by
        decide +kernel
      have hinner : ∀ x ∈ Text.hexByte c.toNat, x ≠ '\\' ∧ x ≠ q := by
        intro x hx
        have hplain := List.all_eq_true.1 (hbyte c.toNat (lt_of_isControl hcontrol)) x hx
        simp only [Bool.and_eq_true, bne_iff_ne, Bool.not_eq_true'] at hplain
        obtain ⟨hslash, hquote⟩ := hplain
        refine ⟨hslash, ?_⟩
        rintro rfl
        simp [hquote] at hq
      have hescape : closing? q ('\\' :: 'x' :: (Text.hexByte c.toNat ++ rest)) =
          (closing? q (Text.hexByte c.toNat ++ rest)).map (before ['\\', 'x']) := rfl
      rw [List.cons_append, List.cons_append, hescape, closing?_append hinner, Option.map_map]
      rfl
    · exact closing?_cons (by simpa using hslash) (by simpa using hc) rest

theorem closing?_quoted {q : Char} (hq : isQuote q = true) (text rest : List Char) :
    closing? q (text.flatMap (Literal.quotedChar q) ++ q :: rest) =
      some (text.flatMap (Literal.quotedChar q) ++ [q], rest) := by
  have hslash : q ≠ '\\' := by
    rintro rfl
    exact absurd hq (by decide)
  induction text with
  | nil =>
    rw [List.flatMap_nil, List.nil_append, closing?.eq_def]
    simp [hslash]
  | cons c cs ih =>
    rw [List.flatMap_cons, List.append_assoc, closing?_quotedChar hq, ih, Option.map_some, before,
      List.append_assoc]

theorem isAtom_quoted {q : Char} (hq : isQuote q = true) (text : List Char) :
    IsAtom (Literal.quoted q text) := by
  intro rest _
  rw [Literal.quoted, List.append_assoc, List.cons_append, List.singleton_append, atom?, if_pos hq,
    closing?_quoted hq]
  rfl

/-! ### Typed text -/

theorem isAtom_infer (raw : List Char) : IsAtom (Literal.infer raw).text := by
  rw [Literal.infer]
  split_ifs with hempty hint hfloat htrue hfalse
  · exact isAtom_of_nameChars (by decide) (List.all_eq_true.1 (by decide))
  · have hnumeric : ∀ c ∈ Text.trim raw, isNumeric c = true := isNumeric_of_dropSign fun c hc => by
      simp only [Literal.isInt, Literal.isDigits, Bool.and_eq_true, List.all_eq_true] at hint
      exact isNumeric_of_isDigit (hint.2 c hc)
    exact isAtom_of_numeric (operand_normalInt hint).ne_nil (isNumeric_normalInt hnumeric)
  · have hnumeric := isNumeric_of_dropSign (isNumeric_of_isFloat hfloat).1
    exact isAtom_of_numeric (operand_normalFloat hfloat).ne_nil (isNumeric_normalFloat hnumeric)
  · exact isAtom_of_nameChars (by decide) (List.all_eq_true.1 (by decide))
  · exact isAtom_of_nameChars (by decide) (List.all_eq_true.1 (by decide))
  · split
    · exact isAtom_quoted rfl _
    · split
      · exact isAtom_quoted rfl _
      · exact isAtom_quoted rfl _

theorem isAtom_token (s : Scope) (raw : String) : IsAtom (token s raw).toList := by
  rw [token]
  cases hname : s.reference? raw with
  | none =>
    rw [literalText, String.toList_ofList]
    exact isAtom_infer _
  | some name =>
    have hne := (operand_of_reference? hname).ne_nil
    simp only [Scope.reference?] at hname
    split at hname
    · split at hname
      · obtain rfl := Option.some.inj hname
        exact isAtom_of_nameChars hne (isNameChar_of_mem_identifier (List.all_eq_true.1 (by decide)))
      · cases hname
    · cases hname

/-! ### Reading -/

inductive Part where
  | operand
  | expression

/-- The start of a text reads as a formula, and something is left of the text. -/
inductive Reads : Part → Formula → List Char → List Char → Prop
  | atom {text a rest : List Char} : atom? text = some (a, rest) →
      Reads .operand (.atom (String.ofList a)) text rest
  | parens {f : Formula} {text rest : List Char} : Reads .expression f text (')' :: rest) →
      Reads .operand f ('(' :: text) rest
  | apply {op : Operator} {left right : Formula} {text middle rest : List Char} :
      Reads .operand left text (' ' :: (op.symbol.toList ++ ' ' :: middle)) →
      Reads .operand right middle rest → Reads .expression (.apply op left right) text rest

theorem symbol_append_injective {op op' : Operator} {xs ys : List Char}
    (h : op.symbol.toList ++ ' ' :: xs = op'.symbol.toList ++ ' ' :: ys) : op = op' ∧ xs = ys := by
  cases op <;> cases op' <;> simp_all [Operator.symbol]

theorem Reads.unique {part : Part} {f g : Formula} {text rest rest' : List Char}
    (h : Reads part f text rest) (h' : Reads part g text rest') : f = g ∧ rest = rest' := by
  induction h generalizing g rest' with
  | atom ha =>
    cases h' with
    | atom ha' =>
      obtain ⟨rfl, rfl⟩ := Prod.mk.inj (Option.some.inj (ha.symm.trans ha'))
      exact ⟨rfl, rfl⟩
    -- no atom begins with a parenthesis
    | parens _ => cases ha
  | parens _ ih =>
    cases h' with
    | atom ha' => cases ha'
    | parens hinner =>
      obtain ⟨rfl, he⟩ := ih hinner
      exact ⟨rfl, List.tail_eq_of_cons_eq he⟩
  | apply _ _ ihleft ihright =>
    cases h' with
    | apply hleft hright =>
      obtain ⟨rfl, he⟩ := ihleft hleft
      obtain ⟨rfl, rfl⟩ := symbol_append_injective (List.tail_eq_of_cons_eq he)
      obtain ⟨rfl, rfl⟩ := ihright hright
      exact ⟨rfl, rfl⟩

namespace Formula

def Formed : Formula → Prop
  | .atom text => IsAtom text.toList
  | .apply _ left right => left.Formed ∧ right.Formed

theorem reads_apply (op : Operator) {left right : Formula}
    (hleft : ∀ rest, Ends rest → Reads .operand left ((left.text true).toList ++ rest) rest)
    (hright : ∀ rest, Ends rest → Reads .operand right ((right.text true).toList ++ rest) rest)
    {rest : List Char} (hrest : Ends rest) :
    Reads .expression (.apply op left right) (((apply op left right).text false).toList ++ rest) rest := by
  have htext : ((apply op left right).text false).toList ++ rest =
      (left.text true).toList ++ ' ' :: (op.symbol.toList ++ ' ' :: ((right.text true).toList ++ rest)) := by
    simp [text]
  rw [htext]
  exact .apply (hleft _ (by simp [Ends, isRun])) (hright rest hrest)

theorem reads_operand {f : Formula} (hf : f.Formed) :
    ∀ rest, Ends rest → Reads .operand f ((f.text true).toList ++ rest) rest := by
  induction f with
  | atom a =>
    intro rest hrest
    have hread := Reads.atom (hf rest hrest)
    rwa [String.ofList_toList] at hread
  | apply op left right ihleft ihright =>
    intro rest _
    have hends : Ends (')' :: rest) := by simp [Ends, isRun]
    have hinner := reads_apply op (ihleft hf.1) (ihright hf.2) hends
    have htext : ((apply op left right).text true).toList ++ rest =
        '(' :: (((apply op left right).text false).toList ++ ')' :: rest) := by
      simp [text]
    rw [htext]
    exact .parens hinner

theorem reads_iff {op : Operator} {left right g : Formula} (hf : (apply op left right).Formed) :
    Reads .expression g ((apply op left right).text false).toList [] ↔ g = .apply op left right := by
  have hends : Ends [] := nofun
  have hread := reads_apply op (reads_operand hf.1) (reads_operand hf.2) hends
  rw [List.append_nil] at hread
  refine ⟨fun hg => (hg.unique hread).1, ?_⟩
  rintro rfl
  exact hread

end Formula

/-! ### The formula of a tree -/

def operandOf (s : Scope) (name : String) (slots : List (Slot Formula)) : Formula :=
  match contentOf name slots with
  | some (.value (some f) _) => f
  | some (.value none literal) => .atom (if Text.allBlank literal then "0" else token s literal)
  | _ => .atom "0"

/-- The formula of a block. Only operations are nested in operations, so no name comes up on the way. -/
def formulaOf (s : Scope) (face : Face) (slots : List (Slot Formula)) : Formula :=
  match face.kind with
  | .operation => .apply (face.operator.getD .add) (operandOf s "left" slots) (operandOf s "right" slots)
  | .assignment => .atom (identifier face.name "var")
  | _ => .atom "None"

end BlockCanvas.Python

namespace BlockCanvas
open Python

def Tree.formula (s : Scope) : Tree → Formula :=
  Tree.fold fun _ face slots _ => formulaOf s face slots

theorem Tree.formula_node (s : Scope) (id : BlockId) (face : Face) (slots : List (Slot Tree))
    (chain : List Tree) : (Tree.node id face slots chain).formula s =
      formulaOf s face (slots.map (Slot.map (Tree.formula s))) :=
  Tree.fold_node ..

namespace Python
variable {s : Scope}

theorem formed_operandOf (name : String) {slots : List (Slot Tree)}
    (h : ∀ t ∈ slots.flatMap Slot.children, (t.formula s).Formed) :
    (operandOf s name (slots.map (Slot.map (Tree.formula s)))).Formed := by
  have hzero : IsAtom "0".toList := isAtom_of_nameChars (by decide) (List.all_eq_true.1 (by decide))
  rw [operandOf, contentOf_map]
  rcases hcontent : contentOf name slots with _ | ⟨_ | t, literal⟩ | entries
  · exact hzero
  · change IsAtom (if Text.allBlank literal then "0" else token s literal).toList
    split
    · exact hzero
    · exact isAtom_token s literal
  · exact h t (mem_children_of_contentOf hcontent (List.mem_singleton_self t))
  · exact hzero

theorem formed_formula (s : Scope) (t : Tree) : (t.formula s).Formed := by
  induction t using Tree.induction with
  | step t ih =>
    obtain ⟨id, face, slots, chain⟩ := t
    have hslots : ∀ t ∈ slots.flatMap Slot.children, (t.formula s).Formed :=
      fun t ht => ih t (List.mem_append_left _ ht)
    rw [Tree.formula_node, formulaOf]
    split
    · exact ⟨formed_operandOf "left" hslots, formed_operandOf "right" hslots⟩
    · exact isAtom_of_nameChars (operand_identifier (Or.inr operand_var)).ne_nil
        (isNameChar_of_mem_identifier (List.all_eq_true.1 (by decide)))
    · exact isAtom_of_nameChars (by decide) (List.all_eq_true.1 (by decide))

theorem legal_operand {id : BlockId} {face : Face} {slots : List (Slot Tree)} {chain : List Tree}
    (h : (Tree.node id face slots chain).Legal) (hk : face.kind = .operation) :
    ∀ t ∈ slots.flatMap Slot.children, t.Legal ∧ t.kind = .operation := by
  intro t ht
  refine ⟨h.of_mem_children (List.mem_append_left _ ht), ?_⟩
  obtain ⟨slot, hslot, ht⟩ := List.mem_flatMap.1 ht
  cases h with
  | node _ _ hnests =>
    have hfits := hnests slot hslot t ht
    rw [hk] at hfits
    -- an operation has no bodies, and its value slots take no names
    cases hshape : slot.shape <;> cases hkind : t.kind <;> rw [hshape, hkind] at hfits <;>
      first | rfl | cases hfits

theorem exists_apply {t : Tree} (hk : t.kind = .operation) :
    ∃ op left right, t.formula s = .apply op left right := by
  obtain ⟨id, face, slots, chain⟩ := t
  have hkind : face.kind = .operation := hk
  rw [Tree.formula_node, formulaOf, hkind]
  exact ⟨_, _, _, rfl⟩

theorem slotText_operandOf {slots : List (Slot Tree)} (h : ∀ t ∈ slots.flatMap Slot.children,
      t.kind = .operation ∧ expression s t = (s, (t.formula s).text false)) (name : String) :
    (slotText s true name slots).getD (s, "0") =
      (s, (operandOf s name (slots.map (Slot.map (Tree.formula s)))).text true) := by
  rw [slotText_eq, operandOf, contentOf_map]
  rcases hcontent : contentOf name slots with _ | ⟨_ | t, literal⟩ | entries
  · rfl
  · cases hblank : Text.allBlank literal <;> simp [Content.map, hblank, Formula.text]
  · obtain ⟨hkind, ht⟩ := h t (mem_children_of_contentOf hcontent (List.mem_singleton_self t))
    obtain ⟨op, left, right, he⟩ := exists_apply (s := s) hkind
    simp [Content.map, hkind, ht, he, Formula.text]
  · rfl

theorem expression_eq {t : Tree} (h : t.Legal) (hk : t.kind = .operation) :
    expression s t = (s, (t.formula s).text false) := by
  induction t using Tree.induction with
  | step t ih =>
    obtain ⟨id, face, slots, chain⟩ := t
    have hkind : face.kind = .operation := hk
    have hslots : ∀ t ∈ slots.flatMap Slot.children,
        t.kind = .operation ∧ expression s t = (s, (t.formula s).text false) := fun t ht =>
      have ⟨hlegal, hop⟩ := legal_operand h hkind t ht
      ⟨hop, ih t (List.mem_append_left _ ht) hlegal hop⟩
    rw [expression, Tree.formula_node, formulaOf, hkind]
    simp only [slotText_operandOf hslots]
    rfl

end Python

namespace Canvas
variable {c : Canvas}

/-- The text of an operation, whatever names are known where it stands, has one reading, and that is the tree of
operations on the canvas. -/
theorem Reachable.expression_reads (h : c.Reachable) (s : Scope) {b : Block} (hb : b ∈ c.blocks)
    (hk : b.kind = .operation) :
    ∃ t, c.tree? b.id = some t ∧ ∀ f, Reads .expression f (expression s t).2.toList [] ↔ f = t.formula s := by
  have hid := block?_of_mem h.sound.ascending hb
  obtain ⟨t, ht⟩ := exists_tree? h.sound.toLinked hid
  have hkind : t.kind = .operation := by
    have hb : c.kind? b.id = some b.kind := by rw [kind?, hid, Option.map_some]
    exact (Option.some.inj ((kind?_of_tree? h.sound.toLinked ht).symm.trans hb)).trans hk
  obtain ⟨op, left, right, he⟩ := exists_apply (s := s) hkind
  have hformed := formed_formula s t
  refine ⟨t, ht, fun f => ?_⟩
  rw [expression_eq (legal_of_tree? h.sound ht) hkind, he]
  exact Formula.reads_iff (he ▸ hformed)

theorem expression_reads_hostile :
    let c := Edit.run empty
      [.instantiate .operation .origin, .setOperator 1 .multiply, .setLiteral ⟨1, 0⟩ "1) + (2",
        .instantiateInto .operation ⟨1, 1⟩, .setOperator 2 .less, .setLiteral ⟨2, 0⟩ "a \" b"]
    let f : Formula :=
      .apply .multiply (.atom "\"1) + (2\"") (.apply .less (.atom "\"a \\\" b\"") (.atom "0"))
    c.Reachable ∧ ∃ t, c.tree? 1 = some t ∧ t.formula {} = f ∧
      (expression {} t).2 = "\"1) + (2\" * (\"a \\\" b\" < 0)" ∧
      ∀ g, Reads .expression g (expression {} t).2.toList [] ↔ g = f := by
  intro c f
  have hc : c.Reachable := Reachable.run (.start _) _
  obtain ⟨b, hb, hid, hk⟩ : ∃ b ∈ c.blocks, b.id = 1 ∧ b.kind = .operation := by decide
  obtain ⟨t, ht, hreads⟩ := Reachable.expression_reads hc {} hb hk
  rw [hid] at ht
  have hformula : (c.tree? 1).map (Tree.formula {}) = some f := by decide +kernel
  have htext : (c.tree? 1).map (fun t => (expression {} t).2) =
      some "\"1) + (2\" * (\"a \\\" b\" < 0)" := by decide +kernel
  rw [ht, Option.map_some, Option.some.injEq] at hformula htext
  exact ⟨hc, t, ht, hformula, htext, hformula ▸ hreads⟩

end Canvas
end BlockCanvas
