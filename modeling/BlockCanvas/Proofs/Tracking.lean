import BlockCanvas.Proofs.Draft
import BlockCanvas.Proofs.Reachable

/-!
Which names a program knows, and when. `Tree.visits` says in which order the blocks of a tree bring up names
and typed text; what a typed token comes to is settled by the names brought up before it
(`Canvas.tracked`).
-/
namespace BlockCanvas

namespace Python

/-! ### Typed tokens -/

inductive Shown where
  | bare (name : String)
  | literal (text : String)
  deriving DecidableEq

namespace Shown

def text : Shown → String
  | .bare name => name
  | .literal text => text

def isBare : Shown → Bool
  | .bare _ => true
  | .literal _ => false

end Shown

def shown (known : List String) (raw : String) : Shown :=
  ((Scope.of known).reference? raw).elim (.literal (literalText raw)) .bare

theorem token_of (known : List String) (raw : String) : token (.of known) raw = (shown known raw).text := by
  rw [token, shown]
  cases (Scope.of known).reference? raw <;> rfl

def LooksNamed (raw : String) : Prop :=
  Text.trim raw.toList ≠ [] ∧ ∀ c ∈ Text.trim raw.toList, isNameChar c = true ∨ c = ' '

instance : DecidablePred LooksNamed := fun _ => inferInstanceAs (Decidable (_ ∧ _))

theorem identifier_trim (raw fallback : String) :
    identifier (String.ofList (Text.trim raw.toList)) fallback = identifier raw fallback := by
  rw [identifier_eq, identifier_eq, nameChars, String.toList_ofList, Text.trim_trim]
  rfl

theorem reference?_of (known : List String) (raw name : String) :
    (Scope.of known).reference? raw = some name ↔
      LooksNamed raw ∧ identifier raw "" = name ∧ name ∈ known := by
  have hlooks : (!(Text.trim raw.toList).isEmpty &&
      (Text.trim raw.toList).all fun c => isNameChar c || c == ' ') = true ↔ LooksNamed raw := by
    simp [LooksNamed]
  simp only [Scope.reference?, identifier_trim]
  split
  · next h =>
    rw [and_iff_right (hlooks.1 h)]
    split
    · next hc =>
      rw [Scope.contains_of] at hc
      constructor
      · rintro he
        obtain rfl := Option.some.inj he
        exact ⟨rfl, hc⟩
      · rintro ⟨rfl, -⟩
        rfl
    · next hc =>
      rw [Scope.contains_of] at hc
      constructor
      · rintro ⟨⟩
      · rintro ⟨rfl, hn⟩
        exact absurd hn hc
  · next h =>
    constructor
    · rintro ⟨⟩
    · exact fun hn => absurd (hlooks.2 hn.1) h

theorem shown_eq_bare_iff (known : List String) (raw name : String) :
    shown known raw = .bare name ↔ LooksNamed raw ∧ identifier raw "" = name ∧ name ∈ known := by
  rw [← reference?_of, shown]
  cases (Scope.of known).reference? raw <;> simp

theorem text_shown (known : List String) (raw : String) : (shown known raw).text =
    if LooksNamed raw ∧ identifier raw "" ∈ known then identifier raw "" else literalText raw := by
  split
  · next h => rw [(shown_eq_bare_iff known raw _).2 ⟨h.1, rfl, h.2⟩, Shown.text]
  · next h =>
    rw [shown]
    cases href : (Scope.of known).reference? raw with
    | none => rfl
    | some name =>
      obtain ⟨hlooks, rfl, hknown⟩ := (reference?_of known raw name).1 href
      exact absurd ⟨hlooks, hknown⟩ h

namespace Piece

/-- The tokens that typed text comes to where these names came up. Arguments are one token unless a part
between commas refers to a name. -/
def tokens (known : List String) : Piece → List String
  | .token raw => [raw]
  | .arguments raw =>
    if Text.allBlank raw then []
    else if (splitCommas raw).length > 1 && (splitCommas raw).any fun part => (shown known part).isBare
    then splitCommas raw
    else [raw]
  | _ => []

def isFixed : Piece → Bool
  | .fixed _ => true
  | _ => false

def isTyped : Piece → Bool
  | .token _ | .arguments _ => true
  | _ => false

end Piece

theorem text_of_isTyped {p : Piece} (h : p.isTyped = true) (o : Options) (known : List String) :
    p.text o known = ", ".intercalate ((p.tokens known).map fun raw => (shown known raw).text) := by
  cases p with
  | token raw => exact token_of known raw
  | arguments raw =>
    have htoken : token (.of known) = fun raw => (shown known raw).text := funext (token_of known)
    have hbare : (fun part => ((Scope.of known).reference? part).isSome) =
        fun part => (shown known part).isBare := by
      funext part
      rw [shown]
      cases (Scope.of known).reference? part <;> rfl
    simp only [Piece.text, Piece.tokens, arguments, hbare, htoken]
    split
    · rfl
    · split <;> rfl
  | fixed _ | named _ | loop => cases h

/-! ### Visits -/

def visited (ps : List Piece) : List Piece :=
  ps.filter fun p => !p.isFixed

@[simp]
theorem visited_append (ps qs : List Piece) : visited (ps ++ qs) = visited ps ++ visited qs :=
  List.filter_append ..

@[simp]
theorem visited_nil : visited [] = [] := rfl

@[simp]
theorem visited_fixed (text : String) (ps : List Piece) : visited (.fixed text :: ps) = visited ps := rfl

theorem visited_cons {p : Piece} (h : p.isFixed = false) (ps : List Piece) :
    visited (p :: ps) = p :: visited ps :=
  List.filter_cons_of_pos (by rw [h]; rfl)

@[simp]
theorem visited_named (name : String) (ps : List Piece) :
    visited (.named name :: ps) = .named name :: visited ps := rfl

@[simp]
theorem visited_token (raw : String) (ps : List Piece) :
    visited (.token raw :: ps) = .token raw :: visited ps := rfl

theorem learn_visited (o : Options) (known : List String) (ps : List Piece) :
    learn o known (visited ps) = learn o known ps := by
  induction ps generalizing known with
  | nil => rfl
  | cons p ps ih =>
    cases hp : p.isFixed with
    | false => rw [visited_cons hp, learn_cons, learn_cons, ih]
    | true =>
      cases p with
      | fixed text => simp [ih]
      | named _ | loop | token _ | arguments _ => exact nomatch hp

structure Visits where
  value : List Piece
  statement : List Piece
  branch : List Piece

namespace Visits

def slot (slots : List (Slot Visits)) (name : String) : List Piece :=
  (slotPieces value name slots).getD []

def entry : Entry Visits → List Piece
  | .block v => v.statement
  | .line text => if Text.allBlank text then [] else [.token text]

def body (slots : List (Slot Visits)) : List Piece :=
  (bodyOf slots).flatMap entry

/-- The own slot of a variable is not visited where it is an expression. -/
def valueOf (face : Face) (slots : List (Slot Visits)) : List Piece :=
  match face.kind with
  | .operation => slot slots "left" ++ slot slots "right"
  | .assignment => [.named (identifier face.name "var")]
  | _ => []

def statementOf (face : Face) (slots : List (Slot Visits)) (chain : List Visits) : List Piece :=
  match face.kind with
  | .assignment =>
    .named (identifier face.name "var") ::
      (slotPieces value "value" slots).getD (face.override.elim [] fun raw => [.token raw])
  | .operation => valueOf face slots
  | .print => printedPieces value face slots
  | .ifBranch => slot slots "condition" ++ body slots ++ chain.flatMap branch
  | .elifBranch | .elseBranch => []
  | .whileLoop => slot slots "condition" ++ body slots
  | .doWhileLoop => body slots ++ slot slots "condition"
  | .forLoop =>
    loopPiece face :: (slot slots "start" ++ slot slots "end" ++ slot slots "step") ++ body slots

def branchOf (face : Face) (slots : List (Slot Visits)) : List Piece :=
  (if face.kind == .elifBranch then slot slots "condition" else []) ++ body slots

def ofFace (face : Face) (slots : List (Slot Visits)) (chain : List Visits) : Visits :=
  ⟨valueOf face slots, statementOf face slots chain, branchOf face slots⟩

end Visits
end Python

def Tree.visits : Tree → Python.Visits :=
  Tree.fold fun _ face slots chain => Python.Visits.ofFace face slots chain

theorem Tree.visits_node (id : BlockId) (face : Face) (slots : List (Slot Tree)) (chain : List Tree) :
    (Tree.node id face slots chain).visits =
      Python.Visits.ofFace face (slots.map (Slot.map Tree.visits)) (chain.map Tree.visits) :=
  Tree.fold_node ..

namespace Python
open Tree

structure Draft.Visited (d : Draft) (v : Visits) : Prop where
  value : visited d.value = v.value
  statement : ∀ level, visited ((d.statement level).flatMap DraftLine.pieces) = v.statement
  branch : ∀ level, visited ((d.branch level).flatMap DraftLine.pieces) = v.branch

section Slots
variable {slots : List (Slot Tree)}

theorem visited_slotPieces (h : ∀ t ∈ slots.flatMap Slot.children, t.draft.Visited t.visits)
    {pieces : Draft → List Piece} (hp : ∀ d, visited (pieces d) = visited d.value) (name : String) :
    (slotPieces pieces name (drafts slots)).map visited =
      slotPieces Visits.value name (slots.map (Slot.map visits)) := by
  rw [slotPieces, slotPieces, drafts, contentOf_map, contentOf_map]
  rcases hcontent : contentOf name slots with _ | ⟨_ | t, literal⟩ | entries
  · rfl
  · cases hblank : Text.allBlank literal <;> simp [Content.map, hblank]
  · have ht := h t (mem_children_of_contentOf hcontent (List.mem_singleton_self t))
    simp [Content.map, hp, ht.value]
  · rfl

theorem visited_slot (h : ∀ t ∈ slots.flatMap Slot.children, t.draft.Visited t.visits)
    {pieces : Draft → List Piece} (hp : ∀ d, visited (pieces d) = visited d.value) (name : String)
    (fallback : String) : visited ((slotPieces pieces name (drafts slots)).getD [.fixed fallback]) =
      Visits.slot (slots.map (Slot.map visits)) name := by
  rw [Visits.slot, ← visited_slotPieces h hp]
  cases slotPieces pieces name (drafts slots) <;> rfl

theorem visited_operand (d : Draft) : visited d.operand = visited d.value := by
  rw [Draft.operand]
  split
  · simp
  · rfl

theorem visited_printedPieces (h : ∀ t ∈ slots.flatMap Slot.children, t.draft.Visited t.visits)
    (face : Face) : visited (printedPieces Draft.value face (drafts slots)) =
      printedPieces Visits.value face (slots.map (Slot.map visits)) := by
  rw [printedPieces, printedPieces, drafts, contentOf_map, contentOf_map]
  rcases hcontent : contentOf "value" slots with _ | ⟨_ | t, literal⟩ | entries
  · rfl
  · rfl
  · exact (h t (mem_children_of_contentOf hcontent (List.mem_singleton_self t))).value
  · rfl

theorem visited_range (h : ∀ t ∈ slots.flatMap Slot.children, t.draft.Visited t.visits) :
    let visit := Visits.slot (slots.map (Slot.map visits))
    visited (Draft.range (drafts slots)) = visit "start" ++ visit "end" ++ visit "step" := by
  intro visit
  have hslot : ∀ name fallback, visited (Draft.slot (drafts slots) name fallback) = visit name :=
    visited_slot h fun _ => rfl
  have hempty : ∀ {name}, ¬ populated name (drafts slots) = true → visit name = [] := by
    intro name hname
    rw [drafts, populated_map, ← populated_map name visits, Bool.not_eq_true] at hname
    simp only [visit, Visits.slot, slotPieces_eq_none hname, Option.getD_none]
  rw [Draft.range]
  split
  · simp [hslot]
  · next hstep =>
    split
    · simp [hslot, hempty hstep]
    · next hend => simp [hslot, hempty hstep, hempty hend]

theorem visited_entryLines {entries : List (Entry Tree)}
    (h : ∀ t ∈ entries.filterMap Entry.block?, t.draft.Visited t.visits) (level : Nat) :
    visited (((entries.map (Entry.map draft)).flatMap (Draft.entryLines level)).flatMap DraftLine.pieces) =
      (entries.map (Entry.map visits)).flatMap Visits.entry := by
  induction entries with
  | nil => rfl
  | cons entry entries ih =>
    cases entry with
    | block t =>
      obtain ⟨ht, hrest⟩ := List.forall_mem_cons.1 h
      simp [Entry.map, Draft.entryLines, Visits.entry, ht.statement, ih hrest]
    | line text =>
      cases hblank : Text.allBlank text <;>
        simp [Entry.map, Draft.entryLines, Visits.entry, hblank, ih h]

theorem visited_bodyLines (h : ∀ t ∈ slots.flatMap Slot.children, t.draft.Visited t.visits) (level : Nat) :
    visited ((Draft.bodyLines level (drafts slots)).flatMap DraftLine.pieces) =
      Visits.body (slots.map (Slot.map visits)) := by
  rw [Draft.bodyLines, Visits.body, drafts, bodyOf_map, bodyOf_map,
    visited_entryLines fun t ht => h t (mem_children_of_bodyOf ht)]

theorem visited_suite (level : Nat) (slots : List (Slot Draft)) :
    visited ((Draft.suite level slots).flatMap DraftLine.pieces) =
      visited ((Draft.bodyLines level slots).flatMap DraftLine.pieces) := by
  rw [Draft.suite]
  cases Draft.bodyLines level slots <;> simp

end Slots

theorem visited_loopPiece (face : Face) (ps : List Piece) :
    visited (loopPiece face :: ps) = loopPiece face :: visited ps := by
  refine visited_cons ?_ ps
  rw [loopPiece]
  split <;> rfl

theorem visited_branches {ts : List Tree} (h : ∀ t ∈ ts, t.draft.Visited t.visits) (level : Nat) :
    visited (((ts.map draft).flatMap fun d => d.branch level).flatMap DraftLine.pieces) =
      (ts.map visits).flatMap Visits.branch := by
  induction ts with
  | nil => rfl
  | cons t ts ih =>
    obtain ⟨ht, hrest⟩ := List.forall_mem_cons.1 h
    simp [ht.branch, ih hrest]

theorem draft_visited (t : Tree) : t.draft.Visited t.visits := by
  induction t using Tree.induction with
  | step t ih =>
    obtain ⟨id, face, slots, chain⟩ := t
    have hslots : ∀ t ∈ slots.flatMap Slot.children, t.draft.Visited t.visits :=
      fun t ht => ih t (List.mem_append_left _ ht)
    have hslot : ∀ name fallback, visited (Draft.slot (drafts slots) name fallback) =
        Visits.slot (slots.map (Slot.map visits)) name := visited_slot hslots fun _ => rfl
    have hbody := visited_bodyLines hslots
    have hvalue : visited (Draft.valueOf face (drafts slots)) =
        Visits.valueOf face (slots.map (Slot.map visits)) := by
      have hoperand : ∀ name, visited (Draft.operandSlot (drafts slots) name) =
          Visits.slot (slots.map (Slot.map visits)) name := fun name =>
        visited_slot hslots visited_operand name "0"
      rw [Draft.valueOf, Visits.valueOf]
      cases face.kind <;> simp [hoperand]
    rw [draft_node, visits_node]
    refine ⟨hvalue, fun level => ?_, fun level => ?_⟩
    · simp only [Draft.ofFace, Draft.statementOf, Visits.ofFace, Visits.statementOf]
      have hchain : visited (((chain.map draft).flatMap fun d => d.branch level).flatMap DraftLine.pieces) =
          (chain.map visits).flatMap Visits.branch :=
        visited_branches (fun t ht => ih t (List.mem_append_right _ ht)) level
      rcases face.kind with _ | _ | _ | _ | _ | _ | _ | _ | _
      case assignment =>
        have hgiven : (slotPieces Draft.value "value" (drafts slots)).map visited =
            slotPieces Visits.value "value" (slots.map (Slot.map visits)) :=
          visited_slotPieces hslots (fun _ => rfl) "value"
        rw [← hgiven]
        cases slotPieces Draft.value "value" (drafts slots) with
        | some ps => simp
        | none => cases face.override <;> simp
      case operation => simpa using hvalue
      case print => simp [visited_printedPieces hslots]
      case ifBranch => simp [hslot, visited_suite, hbody, hchain]
      case elifBranch | elseBranch => simp
      case whileLoop => simp [hslot, visited_suite, hbody]
      case doWhileLoop => simp [hslot, hbody]
      case forLoop => simp [visited_loopPiece, visited_range hslots, visited_suite, hbody]
    · simp only [Draft.ofFace, Draft.branchOf, Visits.ofFace, Visits.branchOf]
      cases face.kind == .elifBranch <;> simp [hslot, hbody, visited_suite]

end Python

namespace Canvas
open Python

def draft (c : Canvas) : List DraftLine :=
  Tree.draftLines (c.forest.map Root.tree)

def visits (c : Canvas) : List Piece :=
  c.forest.flatMap fun r => r.tree.visits.statement

structure Tracked (c : Canvas) (o : Options) : Prop where
  names : (c.program o).names = (learn o [] c.visits).eraseDups
  nodup : (c.program o).names.Nodup
  source : (c.program o).source = render o (spellLines o [] c.draft)
  visits : visited (c.draft.flatMap DraftLine.pieces) = c.visits
  typed : ∀ before p after, c.visits = before ++ p :: after → p.isTyped = true →
    p.text o (learn o [] before) =
      ", ".intercalate ((p.tokens (learn o [] before)).map fun raw => (shown (learn o [] before) raw).text)
  bare : ∀ before after, c.visits = before ++ after → ∀ raw name,
    shown (learn o [] before) raw = .bare name ↔
      LooksNamed raw ∧ identifier raw "" = name ∧ name ∈ learn o [] before
  emitted : ∀ before after, c.visits = before ++ after → ∀ raw,
    (shown (learn o [] before) raw).text =
      if LooksNamed raw ∧ identifier raw "" ∈ learn o [] before then identifier raw ""
      else literalText raw

theorem visited_draft (c : Canvas) : visited (c.draft.flatMap DraftLine.pieces) = c.visits := by
  rw [draft, visits, Tree.draftLines]
  generalize c.forest = roots
  induction roots with
  | nil => rfl
  | cons r roots ih => simp [(draft_visited r.tree).statement, ih]

/-- The names of a program are those that come up as it visits its blocks, and they settle how typed tokens
show. -/
theorem tracked (c : Canvas) (o : Options) : c.Tracked o := by
  have hprogram : c.program o =
      ⟨render o (spellLines o [] c.draft), (Scope.of (learn o [] c.visits)).names⟩ := by
    rw [program, programOf_eq, ← visited_draft, learn_visited]
    rfl
  refine ⟨?names, ?nodup, ?source, c.visited_draft, ?typed, ?bare, ?emitted⟩
  case names => rw [hprogram, Scope.of]
  case nodup =>
    rw [hprogram]
    exact Scope.nodup_of _
  case source => rw [hprogram]
  case typed => exact fun before p _ _ hp => text_of_isTyped hp o (learn o [] before)
  case bare => exact fun before _ _ => shown_eq_bare_iff (learn o [] before)
  case emitted => exact fun before _ _ => text_shown (learn o [] before)

example :
    let c := Edit.run .empty
      [.instantiate .assignment .origin, .setName 1 "a", .setLiteral ⟨1, 0⟩ "1",
        .instantiate .print ⟨0, 100⟩, .setLiteral ⟨2, 0⟩ "a",
        .instantiate .print ⟨0, 200⟩, .setLiteral ⟨3, 0⟩ "b"]
    c.visits = [.named "a", .token "1", .arguments "a", .arguments "b"] ∧
      learn {} [] c.visits = ["a"] ∧ shown ["a"] "a" = .bare "a" ∧ shown ["a"] "b" = .literal "'b'" ∧
      c.program {} = ⟨"a = 1\nprint(a)\nprint('b')\n", ["a"]⟩ := by
  decide +kernel

end Canvas
end BlockCanvas
