import BlockCanvas.Proofs.Spelling
import BlockCanvas.Proofs.TreeFold
import Mathlib.Data.List.Induction

/-!
A program before its names are known. The draft of a tree holds its lines as pieces that are typed text,
names and what stands around them (`Tree.draft`); what the pieces come to depends on the names that came up
before them, in order (`spell`). A program is its draft spelled out from the first piece to the last
(`programOf_eq`).
-/
namespace BlockCanvas.Python

/-! ### Names in the order they come up -/

namespace Scope

def of (known : List String) : Scope :=
  ⟨known.eraseDups⟩

theorem eraseDups_concat (known : List String) (name : String) :
    (known ++ [name]).eraseDups = if name ∈ known then known.eraseDups else known.eraseDups ++ [name] := by
  rw [List.eraseDups_append]
  by_cases h : name ∈ known <;> simp [List.removeAll, List.eraseDups_cons, h]

theorem register_of (known : List String) (name : String) :
    (of known).register name = of (known ++ [name]) := by
  rw [register, contains, of, of, eraseDups_concat]
  by_cases h : name ∈ known
  · have hcontains : known.eraseDups.contains name = true :=
      List.contains_iff_mem.2 (List.mem_eraseDups.2 h)
    rw [if_pos h, if_pos hcontains]
  · have hcontains : ¬ known.eraseDups.contains name = true := fun hc =>
      h (List.mem_eraseDups.1 (List.contains_iff_mem.1 hc))
    rw [if_neg h, if_neg hcontains]

theorem first?_of (known : List String) : (of known).first? = known.head? := by
  cases known with
  | nil => rfl
  | cons name known => simp [first?, of, List.eraseDups_cons]

theorem contains_of (known : List String) (name : String) :
    (of known).contains name = true ↔ name ∈ known := by
  rw [contains, of, List.contains_iff_mem, List.mem_eraseDups]

theorem nodup_of (known : List String) : (of known).names.Nodup := by
  induction known using List.reverseRecOn with
  | nil => exact List.nodup_nil
  | append_singleton known name ih =>
    rw [of, eraseDups_concat]
    split
    · exact ih
    · next h =>
      refine List.nodup_append.2 ⟨ih, List.pairwise_singleton _ name, fun a ha b hb => ?_⟩
      rintro rfl
      obtain rfl := List.mem_singleton.1 hb
      exact h (List.mem_eraseDups.1 ha)

end Scope

/-! ### Pieces -/

inductive Piece where
  | fixed (text : String)
  | named (name : String)
  /-- The name of a loop without one of its own. -/
  | loop
  | token (raw : String)
  | arguments (raw : String)
  deriving DecidableEq

variable (o : Options)

namespace Piece

@[simp]
def names (known : List String) : Piece → List String
  | .named name => [name]
  | .loop => [known.head?.getD o.loopVariable]
  | _ => []

@[simp]
def text (known : List String) : Piece → String
  | .fixed text => text
  | .named name => name
  | .loop => known.head?.getD o.loopVariable
  | .token raw => Python.token (.of known) raw
  | .arguments raw => Python.arguments (.of known) raw

end Piece

def learn (known : List String) (pieces : List Piece) : List String :=
  pieces.foldl (fun known p => known ++ p.names o known) known

/-- The text of pieces, each with the names that came up before it. -/
def spell : List String → List Piece → String
  | _, [] => ""
  | known, p :: ps => p.text o known ++ spell (known ++ p.names o known) ps

structure DraftLine where
  level : Nat
  pieces : List Piece

def learnLines (known : List String) (lines : List DraftLine) : List String :=
  learn o known (lines.flatMap DraftLine.pieces)

def spellLines : List String → List DraftLine → List Line
  | _, [] => []
  | known, line :: lines =>
    ⟨line.level, spell o known line.pieces⟩ :: spellLines (learn o known line.pieces) lines

section Spelling
variable {o : Options} {known : List String}

@[simp]
theorem learn_append (ps qs : List Piece) : learn o known (ps ++ qs) = learn o (learn o known ps) qs :=
  List.foldl_append

@[simp]
theorem spell_append (ps qs : List Piece) :
    spell o known (ps ++ qs) = spell o known ps ++ spell o (learn o known ps) qs := by
  induction ps generalizing known with
  | nil => simp [spell, learn]
  | cons p ps ih => rw [List.cons_append, spell, ih, spell, String.append_assoc]; rfl

@[simp]
theorem learn_nil : learn o known [] = known := rfl

@[simp]
theorem spell_nil : spell o known [] = "" := rfl

@[simp]
theorem learn_cons (p : Piece) (ps : List Piece) :
    learn o known (p :: ps) = learn o (known ++ p.names o known) ps := rfl

@[simp]
theorem spell_cons (p : Piece) (ps : List Piece) :
    spell o known (p :: ps) = p.text o known ++ spell o (known ++ p.names o known) ps := rfl

@[simp]
theorem learnLines_append (ls ms : List DraftLine) :
    learnLines o known (ls ++ ms) = learnLines o (learnLines o known ls) ms := by
  rw [learnLines, List.flatMap_append, learn_append]
  rfl

@[simp]
theorem learnLines_nil : learnLines o known [] = known := rfl

@[simp]
theorem learnLines_cons (l : DraftLine) (ls : List DraftLine) :
    learnLines o known (l :: ls) = learnLines o (learn o known l.pieces) ls :=
  learn_append ..

@[simp]
theorem spellLines_nil : spellLines o known [] = [] := rfl

@[simp]
theorem spellLines_cons (l : DraftLine) (ls : List DraftLine) : spellLines o known (l :: ls) =
    ⟨l.level, spell o known l.pieces⟩ :: spellLines o (learn o known l.pieces) ls := rfl

@[simp]
theorem spellLines_append (ls ms : List DraftLine) :
    spellLines o known (ls ++ ms) = spellLines o known ls ++ spellLines o (learnLines o known ls) ms := by
  induction ls generalizing known with
  | nil => rfl
  | cons l ls ih => rw [List.cons_append, spellLines, ih, spellLines, learnLines_cons, List.cons_append]

def spelled (o : Options) (known : List String) (ps : List Piece) : Scope × String :=
  (.of (learn o known ps), spell o known ps)

def spelledLines (o : Options) (known : List String) (ls : List DraftLine) : Scope × List Line :=
  (.of (learnLines o known ls), spellLines o known ls)

end Spelling

/-! ### Drafts -/

/-- What a block comes to wherever it may be. -/
structure Draft where
  kind : Kind
  value : List Piece
  statement : Nat → List DraftLine
  branch : Nat → List DraftLine

variable {β γ : Type}

def contentOf (name : String) (slots : List (Slot β)) : Option (Content β) :=
  (slots.find? fun s => s.name == name).map Slot.content

theorem contentOf_map (name : String) (f : β → γ) (slots : List (Slot β)) :
    contentOf name (slots.map (Slot.map f)) = (contentOf name slots).map (Content.map f) := by
  rw [contentOf, contentOf, List.find?_map, Option.map_map, Option.map_map]
  rfl

theorem mem_children_of_contentOf {name : String} {slots : List (Slot β)} {content : Content β}
    (h : contentOf name slots = some content) {b : β} (hb : b ∈ content.children) :
    b ∈ slots.flatMap Slot.children := by
  obtain ⟨s, hs, rfl⟩ := Option.map_eq_some_iff.1 h
  exact List.mem_flatMap.2 ⟨s, List.mem_of_find?_eq_some hs, hb⟩

theorem contentOf_cons (name : String) (s : Slot β) (slots : List (Slot β)) :
    contentOf name (s :: slots) = if s.name == name then some s.content else contentOf name slots := by
  rw [contentOf, List.find?_cons]
  cases s.name == name <;> rfl

def slotPieces (pieces : β → List Piece) (name : String) (slots : List (Slot β)) : Option (List Piece) :=
  match contentOf name slots with
  | some (.value (some b) _) => some (pieces b)
  | some (.value none literal) => if Text.allBlank literal then none else some [.token literal]
  | _ => none

def populated (name : String) (slots : List (Slot β)) : Bool :=
  (slots.find? fun s => s.name == name).any Slot.isPopulated

theorem populated_map (name : String) (f : β → γ) (slots : List (Slot β)) :
    populated name (slots.map (Slot.map f)) = populated name slots := by
  have hname : (fun s : Slot γ => s.name == name) ∘ Slot.map f = fun s => s.name == name := rfl
  rw [populated, populated, List.find?_map, hname]
  cases slots.find? fun s => s.name == name with
  | none => rfl
  | some s => obtain ⟨n, ⟨_ | b, literal⟩ | _ | _⟩ := s <;> rfl

theorem slotPieces_eq_none {name : String} {slots : List (Slot β)} (h : populated name slots = false)
    (pieces : β → List Piece) : slotPieces pieces name slots = none := by
  rw [populated] at h
  rw [slotPieces, contentOf]
  generalize (slots.find? fun s => s.name == name) = found at h
  obtain _ | ⟨n, ⟨_ | b, literal⟩ | entries⟩ := found
  · rfl
  · simpa [Slot.isPopulated] using h
  · simp [Slot.isPopulated] at h
  · rfl

def printedPieces (pieces : β → List Piece) (face : Face) (slots : List (Slot β)) : List Piece :=
  match contentOf "value" slots with
  | some (.value (some b) _) => pieces b
  | some (.value none literal) =>
    [.arguments (if Text.allBlank literal then face.override.getD "" else literal)]
  | _ => [.arguments (face.override.getD "")]

def bodyOf (slots : List (Slot β)) : List (Entry β) :=
  match contentOf "body" slots with
  | some (.body entries) => entries
  | _ => []

theorem bodyOf_map (f : β → γ) (slots : List (Slot β)) :
    bodyOf (slots.map (Slot.map f)) = (bodyOf slots).map (Entry.map f) := by
  rw [bodyOf, bodyOf, contentOf_map]
  rcases contentOf "body" slots with _ | ⟨_ | t, literal⟩ | entries <;> rfl

theorem mem_children_of_bodyOf {slots : List (Slot β)} {b : β}
    (h : b ∈ (bodyOf slots).filterMap Entry.block?) : b ∈ slots.flatMap Slot.children := by
  rw [bodyOf] at h
  rcases hcontent : contentOf "body" slots with _ | ⟨_ | t, literal⟩ | entries <;> rw [hcontent] at h
  · exact nomatch h
  · exact nomatch h
  · exact nomatch h
  · exact mem_children_of_contentOf hcontent h

def loopPiece (face : Face) : Piece :=
  if Text.allBlank face.name then .loop else .named (identifier face.name "")

namespace Draft

def operand (d : Draft) : List Piece :=
  if d.kind == .operation then .fixed "(" :: d.value ++ [.fixed ")"] else d.value

def slot (slots : List (Slot Draft)) (name fallback : String) : List Piece :=
  (slotPieces value name slots).getD [.fixed fallback]

def operandSlot (slots : List (Slot Draft)) (name : String) : List Piece :=
  (slotPieces operand name slots).getD [.fixed "0"]

def range (slots : List (Slot Draft)) : List Piece :=
  if populated "step" slots then
    slot slots "start" "0" ++ .fixed ", " :: (slot slots "end" "0" ++ .fixed ", " :: slot slots "step" "1")
  else if populated "end" slots then slot slots "start" "0" ++ .fixed ", " :: slot slots "end" "0"
  else slot slots "start" "0"

def entryLines (level : Nat) : Entry Draft → List DraftLine
  | .block d => d.statement level
  | .line text => if Text.allBlank text then [] else [⟨level, [.token text]⟩]

def bodyLines (level : Nat) (slots : List (Slot Draft)) : List DraftLine :=
  (bodyOf slots).flatMap (entryLines level)

def suite (level : Nat) (slots : List (Slot Draft)) : List DraftLine :=
  if (bodyLines level slots).isEmpty then [⟨level, [.fixed "pass"]⟩] else bodyLines level slots

def valueOf (face : Face) (slots : List (Slot Draft)) : List Piece :=
  match face.kind with
  | .operation =>
    operandSlot slots "left" ++
      .fixed (" " ++ (face.operator.getD .add).symbol ++ " ") :: operandSlot slots "right"
  | .assignment => [.named (identifier face.name "var")]
  | _ => [.fixed "None"]

def statementOf (level : Nat) (face : Face) (slots : List (Slot Draft)) (chain : List Draft) :
    List DraftLine :=
  match face.kind with
  | .assignment =>
    let given := face.override.elim [.fixed "None"] fun raw => [.token raw]
    [⟨level, .named (identifier face.name "var") :: .fixed " = " ::
      (slotPieces value "value" slots).getD given⟩]
  | .operation => [⟨level, valueOf face slots⟩]
  | .print => [⟨level, .fixed "print(" :: printedPieces value face slots ++ [.fixed ")"]⟩]
  | .ifBranch =>
    ⟨level, .fixed "if " :: slot slots "condition" "False" ++ [.fixed ":"]⟩ :: suite (level + 1) slots ++
      chain.flatMap fun d => d.branch level
  | .elifBranch | .elseBranch =>
    [⟨level, [.fixed ("pass  # '" ++ face.kind.name ++ "' block is not attached to an if")]⟩]
  | .whileLoop =>
    ⟨level, .fixed "while " :: slot slots "condition" "False" ++ [.fixed ":"]⟩ :: suite (level + 1) slots
  | .doWhileLoop =>
    ⟨level, [.fixed "while True:"]⟩ :: bodyLines (level + 1) slots ++
      [⟨level + 1, .fixed "if not (" :: slot slots "condition" "False" ++ [.fixed "): break"]⟩]
  | .forLoop =>
    ⟨level, .fixed "for " :: loopPiece face :: .fixed " in range(" :: range slots ++ [.fixed "):"]⟩ ::
      suite (level + 1) slots

def branchOf (level : Nat) (face : Face) (slots : List (Slot Draft)) : List DraftLine :=
  (if face.kind == .elifBranch then
    ⟨level, .fixed "elif " :: slot slots "condition" "False" ++ [.fixed ":"]⟩
  else ⟨level, [.fixed "else:"]⟩) :: suite (level + 1) slots

def ofFace (face : Face) (slots : List (Slot Draft)) (chain : List Draft) : Draft where
  kind := face.kind
  value := valueOf face slots
  statement level := statementOf level face slots chain
  branch level := branchOf level face slots

end Draft
end BlockCanvas.Python

namespace BlockCanvas
open Python

def Tree.draft : Tree → Draft :=
  Tree.fold fun _ face slots chain => Draft.ofFace face slots chain

def Tree.drafts (slots : List (Slot Tree)) : List (Slot Draft) :=
  slots.map (Slot.map Tree.draft)

def Tree.draftLines (ts : List Tree) : List DraftLine :=
  ts.flatMap fun t => t.draft.statement 0

theorem Tree.draft_node (id : BlockId) (face : Face) (slots : List (Slot Tree)) (chain : List Tree) :
    (Tree.node id face slots chain).draft =
      Draft.ofFace face (drafts slots) (chain.map Tree.draft) :=
  Tree.fold_node ..

theorem Tree.kind_draft (t : Tree) : t.draft.kind = t.kind := by
  obtain ⟨id, face, slots, chain⟩ := t
  rw [draft_node]
  rfl

namespace Python
open Tree

variable {o : Options} {known : List String}

/-! ### Spelling out expressions -/

def piecesOf (operand : Bool) (d : Draft) : List Piece :=
  if operand then d.operand else d.value

theorem spelled_piecesOf (operand : Bool) (t : Tree) : spelled o known (piecesOf operand t.draft) =
    ((spelled o known t.draft.value).1,
      if operand && t.kind == .operation then "(" ++ (spelled o known t.draft.value).2 ++ ")"
      else (spelled o known t.draft.value).2) := by
  cases operand with
  | false => rfl
  | true =>
    by_cases hkind : t.kind = .operation
    · simp [piecesOf, Draft.operand, kind_draft, hkind, spelled, String.append_assoc]
    · simp [piecesOf, Draft.operand, kind_draft, hkind]

theorem slotText_eq (s : Scope) (operand : Bool) (name : String) (slots : List (Slot Tree)) :
    slotText s operand name slots =
      match contentOf name slots with
      | some (.value (some t) _) =>
        some ((expression s t).1,
          if operand && t.kind == .operation then "(" ++ (expression s t).2 ++ ")" else (expression s t).2)
      | some (.value none literal) => if Text.allBlank literal then none else some (s, token s literal)
      | _ => none := by
  induction slots with
  | nil => rfl
  | cons slot slots ih =>
    rw [contentOf_cons]
    obtain ⟨n, ⟨_ | t, literal⟩ | entries⟩ := slot <;> cases hn : n == name <;> simp [slotText, hn, ih]

theorem slotText_drafts {slots : List (Slot Tree)}
    (h : ∀ t ∈ slots.flatMap Slot.children, ∀ known,
      expression (.of known) t = spelled o known t.draft.value)
    (known : List String) (operand : Bool) (name : String) :
    slotText (.of known) operand name slots =
      (slotPieces (piecesOf operand) name (drafts slots)).map (spelled o known) := by
  rw [slotText_eq, slotPieces, drafts, contentOf_map]
  rcases hcontent : contentOf name slots with _ | ⟨_ | t, literal⟩ | entries
  · rfl
  · cases hblank : Text.allBlank literal <;> simp [Content.map, hblank, spelled]
  · have ht := h t (mem_children_of_contentOf hcontent (List.mem_singleton_self t)) known
    simp [Content.map, ht, spelled_piecesOf]
  · rfl

theorem getD_map_spelled (pieces? : Option (List Piece)) (fallback : String) :
    (pieces?.map (spelled o known)).getD (.of known, fallback) =
      spelled o known (pieces?.getD [.fixed fallback]) := by
  cases pieces? with
  | none => simp [spelled]
  | some ps => rfl

theorem expression_draft (t : Tree) :
    ∀ known, expression (.of known) t = spelled o known t.draft.value := by
  induction t using Tree.induction with
  | step t ih =>
    intro known
    obtain ⟨id, face, slots, chain⟩ := t
    have hslots : ∀ t ∈ slots.flatMap Slot.children, ∀ known,
        expression (.of known) t = spelled o known t.draft.value :=
      fun t ht => ih t (List.mem_append_left _ ht)
    have hoperand : ∀ known name, (slotText (.of known) true name slots).getD (.of known, "0") =
        spelled o known (Draft.operandSlot (drafts slots) name) := by
      intro known name
      rw [slotText_drafts hslots, getD_map_spelled]
      rfl
    rw [expression, draft_node, Draft.ofFace, Draft.valueOf]
    cases face.kind with
    | operation => simp [hoperand, spelled, String.append_assoc]
    | assignment => simp [spelled, Scope.register_of]
    | print | ifBranch | elifBranch | elseBranch | whileLoop | doWhileLoop | forLoop =>
      simp [spelled]

theorem slot_draft (known : List String) (name fallback : String) (slots : List (Slot Tree)) :
    (slotText (.of known) false name slots).getD (.of known, fallback) =
      spelled o known (Draft.slot (drafts slots) name fallback) := by
  rw [slotText_drafts fun t _ => expression_draft t, getD_map_spelled]
  rfl

theorem printArguments_draft (known : List String) (face : Face) (slots : List (Slot Tree)) :
    printArguments (.of known) face slots =
      spelled o known (printedPieces Draft.value face (drafts slots)) := by
  have harguments : ∀ raw, spelled o known [.arguments raw] =
      (.of known, arguments (.of known) raw) := by
    simp [spelled]
  have hcontent : (slotNamed? "value" slots).map Slot.content = contentOf "value" slots := rfl
  rw [printArguments, printedPieces, drafts, contentOf_map, ← hcontent, printedText]
  rcases slotNamed? "value" slots with _ | ⟨n, ⟨_ | t, literal⟩ | entries⟩
  · exact (harguments _).symm
  · exact (harguments _).symm
  · exact expression_draft t known
  · exact (harguments _).symm

theorem rangeArguments_draft (known : List String) (slots : List (Slot Tree)) :
    rangeArguments (.of known) slots = spelled o known (Draft.range (drafts slots)) := by
  have hpopulated : ∀ name, populated name (drafts slots) = (slotNamed? name slots).any Slot.isPopulated :=
    fun name => populated_map name draft slots
  have hslot : ∀ known name fallback, (slotText (.of known) false name slots).getD (.of known, fallback) =
      (.of (learn o known (Draft.slot (drafts slots) name fallback)),
        spell o known (Draft.slot (drafts slots) name fallback)) :=
    fun known name fallback => slot_draft known name fallback slots
  simp only [rangeArguments, Draft.range, hpopulated, hslot]
  split
  · simp [spelled, String.append_assoc]
  · split
    · simp [spelled, String.append_assoc]
    · rfl

theorem loopPiece_cases (known : List String) (face : Face) :
    loopPiece face = .loop ∧ loopVariable o (.of known) face = known.head?.getD o.loopVariable ∨
      ∃ name, loopPiece face = .named name ∧ loopVariable o (.of known) face = name := by
  rw [loopVariable, loopPiece]
  split
  · exact Or.inl ⟨rfl, by rw [Scope.first?_of]⟩
  · next h =>
    have hne : nameChars face.name ≠ [] :=
      mt List.map_eq_nil_iff.1 fun he => h (Text.allBlank_iff.2 he)
    refine Or.inr ⟨_, rfl, ?_⟩
    rw [identifier_eq, identifier_eq, if_neg hne, if_neg hne]

/-! ### Spelling out statements -/

@[simp]
theorem learnLines_suite (level : Nat) (slots : List (Slot Draft)) :
    learnLines o known (Draft.suite level slots) = learnLines o known (Draft.bodyLines level slots) := by
  rw [Draft.suite]
  cases Draft.bodyLines level slots with
  | nil => simp
  | cons l ls => rfl

@[simp]
theorem spellLines_suite (level : Nat) (slots : List (Slot Draft)) :
    spellLines o known (Draft.suite level slots) =
      orPass level (spellLines o known (Draft.bodyLines level slots)) := by
  rw [Draft.suite]
  cases Draft.bodyLines level slots with
  | nil => simp [orPass]
  | cons l ls => rfl

theorem entryLines_draft {entries : List (Entry Tree)}
    (h : ∀ t ∈ entries.filterMap Entry.block?, ∀ level known,
      statement o level (.of known) t = spelledLines o known (t.draft.statement level))
    (level : Nat) (known : List String) :
    entryLines o level (.of known) entries =
      spelledLines o known ((entries.map (Entry.map draft)).flatMap (Draft.entryLines level)) := by
  induction entries generalizing known with
  | nil => rfl
  | cons entry entries ih =>
    rw [List.map_cons, List.flatMap_cons, spelledLines, learnLines_append, spellLines_append]
    cases entry with
    | block t =>
      obtain ⟨ht, hrest⟩ := List.forall_mem_cons.1 h
      simp only [entryLines, ht, spelledLines, ih hrest, Entry.map, Draft.entryLines]
    | line text =>
      simp only [entryLines, ih h, spelledLines, Entry.map, Draft.entryLines]
      split
      · rfl
      · simp

theorem bodyLines_eq (level : Nat) (s : Scope) (slots : List (Slot Tree)) :
    bodyLines o level s slots = entryLines o level s (bodyOf slots) := by
  induction slots with
  | nil => rfl
  | cons slot slots ih =>
    rw [bodyOf, contentOf_cons]
    obtain ⟨n, child | entries⟩ := slot <;> cases hn : n == "body" <;>
      simp [bodyLines, hn, ih, bodyOf, entryLines]

theorem bodyLines_drafts {slots : List (Slot Tree)}
    (h : ∀ t ∈ slots.flatMap Slot.children, ∀ level known,
      statement o level (.of known) t = spelledLines o known (t.draft.statement level))
    (level : Nat) (known : List String) :
    bodyLines o level (.of known) slots =
      spelledLines o known (Draft.bodyLines level (drafts slots)) := by
  rw [bodyLines_eq, entryLines_draft fun t ht => h t (mem_children_of_bodyOf ht), Draft.bodyLines, drafts,
    bodyOf_map]

theorem branches_draft {ts : List Tree}
    (h : ∀ t ∈ ts, ∀ level known, bodyLines o level (.of known) t.slots =
      spelledLines o known (Draft.bodyLines level (drafts t.slots)))
    (level : Nat) (known : List String) :
    branches o level (.of known) ts =
      spelledLines o known ((ts.map draft).flatMap fun d => d.branch level) := by
  induction ts generalizing known with
  | nil => rfl
  | cons t ts ih =>
    obtain ⟨id, face, slots, chain⟩ := t
    obtain ⟨ht, hrest⟩ := List.forall_mem_cons.1 h
    have hbody : ∀ level known, bodyLines o level (.of known) slots =
      spelledLines o known (Draft.bodyLines level (drafts slots)) := ht
    have hcondition : condition (.of known) slots =
      spelled o known (Draft.slot (drafts slots) "condition" "False") := slot_draft ..
    rw [List.map_cons, List.flatMap_cons, draft_node]
    simp only [Draft.ofFace, Draft.branchOf, branches]
    cases face.kind == .elifBranch with
    | true => simp [hcondition, spelled, hbody, ih hrest, spelledLines, String.append_assoc]
    | false => simp [hbody, ih hrest, spelledLines]

theorem statement_draft (t : Tree) :
    (∀ level known, statement o level (.of known) t = spelledLines o known (t.draft.statement level)) ∧
      ∀ level known, bodyLines o level (.of known) t.slots =
        spelledLines o known (Draft.bodyLines level (drafts t.slots)) := by
  induction t using Tree.induction with
  | step t ih =>
    obtain ⟨id, face, slots, chain⟩ := t
    have hbody : ∀ level known, bodyLines o level (.of known) slots =
        spelledLines o known (Draft.bodyLines level (drafts slots)) :=
      bodyLines_drafts fun t ht => (ih t (List.mem_append_left _ ht)).1
    have hbranches : ∀ level known, branches o level (.of known) chain =
        spelledLines o known ((chain.map draft).flatMap fun d => d.branch level) :=
      branches_draft fun t ht => (ih t (List.mem_append_right _ ht)).2
    refine ⟨fun level known => ?_, hbody⟩
    have hexpression := expression_draft (o := o) (.node id face slots chain)
    rw [draft_node] at hexpression ⊢
    have hcondition : ∀ known, condition (.of known) slots =
        spelled o known (Draft.slot (drafts slots) "condition" "False") := fun _ => slot_draft ..
    simp only [statement, Draft.ofFace, Draft.statementOf]
    -- each line is spelled with the names that the pieces before it leave, on both sides in the same order
    rcases hk : face.kind with _ | _ | _ | _ | _ | _ | _ | _ | _
    case assignment =>
      have hslot : ∀ known, slotText (.of known) false "value" slots =
          (slotPieces Draft.value "value" (drafts slots)).map (spelled o known) :=
        fun known => slotText_drafts (fun t _ => expression_draft t) known false "value"
      simp only [Scope.register_of, hslot]
      cases slotPieces Draft.value "value" (drafts slots) with
      | some ps => simp [spelled, spelledLines, String.append_assoc]
      | none => cases face.override <;> simp [spelledLines, String.append_assoc]
    case operation =>
      have hvalue := hexpression known
      simp only [Draft.ofFace] at hvalue
      simp [hvalue, spelled, spelledLines]
    case print =>
      have hprint := printArguments_draft (o := o) known face slots
      simp [hprint, spelled, spelledLines, String.append_assoc]
    case ifBranch =>
      simp [hcondition, spelled, hbody, hbranches, spelledLines, String.append_assoc]
    case elifBranch | elseBranch => simp [spelledLines]
    case whileLoop => simp [hcondition, spelled, hbody, spelledLines, String.append_assoc]
    case doWhileLoop => simp [hcondition, spelled, hbody, spelledLines, String.append_assoc]
    case forLoop =>
      have hrange := fun known => rangeArguments_draft (o := o) known slots
      rcases loopPiece_cases (o := o) known face with ⟨hpiece, hname⟩ | ⟨name, hpiece, hname⟩ <;>
        simp [hname, hpiece, Scope.register_of, hrange, spelled, hbody, spelledLines, String.append_assoc]

theorem forestLines_draft (ts : List Tree) (known : List String) :
    forestLines o (.of known) ts = spelledLines o known (draftLines ts) := by
  induction ts generalizing known with
  | nil => rfl
  | cons t ts ih =>
    rw [draftLines] at ih ⊢
    simp [forestLines, (statement_draft t).1, spelledLines, ih]

/-- A program is its draft spelled out from the first piece to the last. -/
theorem programOf_eq (o : Options) (ts : List Tree) :
    programOf o ts =
      ⟨render o (spellLines o [] (draftLines ts)), (Scope.of (learnLines o [] (draftLines ts))).names⟩ := by
  have hlines : forestLines o {} ts = spelledLines o [] (draftLines ts) := forestLines_draft ts []
  rw [programOf, hlines]
  rfl

end Python
end BlockCanvas
