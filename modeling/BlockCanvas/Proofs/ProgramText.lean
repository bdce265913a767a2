import BlockCanvas.Proofs.Draft
import BlockCanvas.Proofs.LegalTree
import BlockCanvas.Proofs.Reachable
import BlockCanvas.Proofs.Statements

/-!
What a program tells a reader of its text. The blocks of a canvas come to statements whose lines are pieces
(`Tree.statement`); read back, the program of a canvas is the forest of the canvas with each line spelled out
where it stands (`Canvas.Reachable.program_reads_back`).
-/
namespace BlockCanvas

namespace Python

namespace Statement

/-- A block on its own: a connector says nothing unless it hangs off an `if`. -/
def alone : Statement (List Piece) → Statement (List Piece)
  | .node (.block kind) line suite branches =>
    if kind.isConnector then
      leaf (.loose kind) [.fixed ("pass  # '" ++ kind.name ++ "' block is not attached to an if")]
    else .node (.block kind) line suite branches
  | s => s

def orPass (suite : List (Statement (List Piece))) : List (Statement (List Piece)) :=
  if suite.isEmpty then [leaf .pass [.fixed "pass"]] else suite

def ofEntry? : Entry (Statement (List Piece)) → Option (Statement (List Piece))
  | .block s => some s.alone
  | .line text => if Text.allBlank text then none else some (leaf .bare [.token text])

def ofSlots (slots : List (Slot (Statement (List Piece)))) : List (Statement (List Piece)) :=
  (bodyOf slots).filterMap ofEntry?

def ofFace (face : Face) (drafts : List (Slot Draft)) (slots : List (Slot (Statement (List Piece))))
    (chain : List (Statement (List Piece))) : Statement (List Piece) :=
  let test := Draft.slot drafts "condition" "False"
  let suite := ofSlots slots
  match face.kind with
  | .assignment =>
    let name := identifier face.name "var"
    let given := face.override.elim [.fixed "None"] fun raw => [.token raw]
    leaf (.assignment name)
      (.named name :: .fixed " = " :: (slotPieces Draft.value "value" drafts).getD given)
  | .operation => leaf .bare (Draft.valueOf face drafts)
  | .print => leaf (.block .print) (.fixed "print(" :: printedPieces Draft.value face drafts ++ [.fixed ")"])
  | .ifBranch => .node (.block .ifBranch) (.fixed "if " :: test ++ [.fixed ":"]) (orPass suite) chain
  | .elifBranch => .node (.block .elifBranch) (.fixed "elif " :: test ++ [.fixed ":"]) (orPass suite) []
  | .elseBranch => .node (.block .elseBranch) [.fixed "else:"] (orPass suite) []
  | .whileLoop => .node (.block .whileLoop) (.fixed "while " :: test ++ [.fixed ":"]) (orPass suite) []
  | .doWhileLoop =>
    let leave := leaf .leave (.fixed "if not (" :: test ++ [.fixed "): break"])
    .node (.block .doWhileLoop) [.fixed "while True:"] (suite ++ [leave]) []
  | .forLoop =>
    .node (.block .forLoop)
      (.fixed "for " :: loopPiece face :: .fixed " in range(" :: Draft.range drafts ++ [.fixed "):"])
      (orPass suite) []

mutual
def pieces : Statement (List Piece) → List Piece
  | .node _ line suite branches => line ++ piecesAll suite ++ piecesAll branches
def piecesAll : List (Statement (List Piece)) → List Piece
  | [] => []
  | s :: ss => s.pieces ++ piecesAll ss
end

mutual
/-- A statement spelled out, each line with the names that came up before it. -/
def say (o : Options) (known : List String) : Statement (List Piece) → Statement String
  | .node mark line suite branches =>
    let inner := learn o known line
    .node mark (Python.spell o known line) (sayAll o inner suite)
      (sayAll o (learn o inner (piecesAll suite)) branches)
def sayAll (o : Options) (known : List String) :
    List (Statement (List Piece)) → List (Statement String)
  | [] => []
  | s :: ss => s.say o known :: sayAll o (learn o known s.pieces) ss
end

end Statement
end Python

def Tree.told : Tree → Python.Draft × Python.Statement (List Python.Piece) :=
  Tree.fold fun _ face slots chain =>
    let drafts := slots.map (Slot.map Prod.fst)
    (Python.Draft.ofFace face drafts (chain.map Prod.fst),
      Python.Statement.ofFace face drafts (slots.map (Slot.map Prod.snd)) (chain.map Prod.snd))

def Tree.statement (t : Tree) : Python.Statement (List Python.Piece) :=
  t.told.2

namespace Python
open Statement Tree

/-! ### The texts of lines -/

theorem marked_append {text : String} {w rest : List Char} {c : Char} {header : Bool}
    (htext : text.toList = w ++ c :: rest) (hne : w ≠ []) (hw : w.all isNameChar = true)
    (hc : isNameChar c = false) (hrest : '\n' ∉ c :: rest) (hheader : isHeader text.toList = header) :
    Marked text header (markOf w (c :: rest) header) := by
  rw [List.all_eq_true] at hw
  have hno : ∀ {c : Char}, isNameChar c = false → c ∉ w := fun hc hm => by simp [hw _ hm] at hc
  refine ⟨?_, hheader, ?_⟩
  · rw [htext]
    refine ⟨by simp, ?_, ?_⟩
    · exact fun hm => (List.mem_append.1 hm).elim (hno isNameChar_newline) hrest
    · rw [List.head?_append_of_ne_nil _ hne]
      exact fun h => hno isNameChar_space (List.mem_of_head? h)
  · rw [← hheader, htext]
    exact mark_append hw (by simpa using hc)

theorem marked_header (text : String) {w inner : List Char}
    (htext : text.toList = w ++ ' ' :: (inner ++ [':'])) (hne : w ≠ [])
    (hw : w.all isNameChar = true) (hinner : '\n' ∉ inner) :
    Marked text true (markOf w (' ' :: (inner ++ [':'])) true) := by
  refine marked_append htext hne hw isNameChar_space (by simp [hinner]) ?_
  rw [isHeader, htext, ← List.cons_append, ← List.append_assoc, List.getLast?_concat]
  rfl

theorem marked_for {name range : String} (hn : '\n' ∉ name.toList) (hrange : '\n' ∉ range.toList) :
    Marked ("for " ++ name ++ " in range(" ++ range ++ "):") true (.block .forLoop) := by
  have htext : ("for " ++ name ++ " in range(" ++ range ++ "):").toList =
      ['f', 'o', 'r'] ++ ' ' ::
        (name.toList ++ " in range(".toList ++ range.toList ++ [')'] ++ [':']) := by simp
  exact marked_header _ htext (by simp) (by decide) (by simp [hn, hrange])

theorem valued_slot {s : Scope} (hs : s.Plain) (name : String) (slots : List (Slot Tree))
    (fallback : String) (hf : Operand fallback.toList) :
    Valued ((slotText s false name slots).getD (s, fallback)) :=
  (valued_slotText_getD hs false name (fun t _ => expressed t) fallback hf).1

theorem valued_condition {s : Scope} (hs : s.Plain) (slots : List (Slot Tree)) :
    Valued (condition s slots) :=
  valued_slot hs "condition" slots "False" (.of_word (by decide) (by decide) (by decide))

theorem unbroken_intercalate {parts : List String} (h : ∀ p ∈ parts, '\n' ∉ p.toList) :
    '\n' ∉ (", ".intercalate parts).toList := by
  induction parts with
  | nil => simp
  | cons p parts ih =>
    obtain ⟨hp, hparts⟩ := List.forall_mem_cons.1 h
    cases parts with
    | nil => simpa using hp
    | cons p' parts =>
      rw [String.intercalate_cons_cons, String.toList_append, String.toList_append, List.mem_append,
        List.mem_append]
      exact fun hm => hm.elim (fun hm => hm.elim hp (by decide)) (ih hparts)

theorem unbroken_arguments (s : Scope) (raw : String) : '\n' ∉ (arguments s raw).toList := by
  rw [arguments]
  split
  · simp
  · simp only
    split
    · refine unbroken_intercalate fun p hp => ?_
      obtain ⟨part, -, rfl⟩ := List.mem_map.1 hp
      exact (operand_token s part).unbroken
    · exact (operand_token s raw).unbroken

theorem plain_printArguments {s : Scope} (hs : s.Plain) (face : Face) (slots : List (Slot Tree)) :
    (printArguments s face slots).1.Plain ∧ '\n' ∉ (printArguments s face slots).2.toList := by
  rw [printArguments]
  split
  · next child _ _ =>
    obtain ⟨hplain, hspelled⟩ := (expressed child s hs).1
    exact ⟨hplain, hspelled.unbroken⟩
  · exact ⟨hs, unbroken_arguments _ _⟩

theorem operand_zero : Operand "0".toList :=
  .of_word (by decide) (by decide) (by decide)

theorem plain_rangeArguments {s : Scope} (hs : s.Plain) (slots : List (Slot Tree)) :
    (rangeArguments s slots).1.Plain ∧ '\n' ∉ (rangeArguments s slots).2.toList := by
  obtain ⟨hplain, hstart⟩ := valued_slot hs "start" slots "0" operand_zero
  obtain ⟨hplain', hstop⟩ := valued_slot hplain "end" slots "0" operand_zero
  obtain ⟨hplain'', hstep⟩ := valued_slot hplain' "step" slots "1"
    (.of_word (by decide) (by decide) (by decide))
  simp only [rangeArguments]
  split
  · exact ⟨hplain'', by simp [hstart.unbroken, hstop.unbroken, hstep.unbroken]⟩
  · split
    · exact ⟨hplain', by simp [hstart.unbroken, hstop.unbroken]⟩
    · exact ⟨hplain, hstart.unbroken⟩

theorem plain_loopVariable {o : Options} (ho : ∀ c ∈ o.loopVariable.toList, isNameChar c = true)
    {s : Scope} (hs : s.Plain) (face : Face) : '\n' ∉ (loopVariable o s face).toList := by
  have hdefault : '\n' ∉ o.loopVariable.toList := fun hm => by
    simpa [isNameChar_newline] using ho _ hm
  rw [loopVariable]
  split
  · cases hfirst : s.first? with
    | none => exact hdefault
    | some name => exact hs name (List.mem_of_head? hfirst)
  · exact unbroken_identifier ho

theorem marked_assignment {name value : String} (hn : Operand name.toList)
    (hname : name.toList.all isNameChar = true) (hv : Spelled value.toList) :
    Marked (name ++ " = " ++ value) false (.assignment name) := by
  have htext : (name ++ " = " ++ value).toList =
      name.toList ++ ' ' :: '=' :: ' ' :: value.toList := by simp
  have hheader : isHeader (name ++ " = " ++ value).toList = false := by
    have hsplit : name.toList ++ ' ' :: '=' :: ' ' :: value.toList =
        (name.toList ++ [' ', '=', ' ']) ++ value.toList := by simp
    rw [isHeader, htext, hsplit, List.getLast?_append_of_ne_nil _ hv.ne_nil]
    simpa using hv.stop
  have hmarked := marked_append htext hn.ne_nil hname isNameChar_space (by simp [hv.unbroken]) hheader
  have hleader : name.toList ∉ leaders := by
    have hbare := hn.bare
    rw [mark, (word_of_forall (List.all_eq_true.1 hname)).1] at hbare
    exact (markOf_eq_bare_iff.1 hbare).1
  rw [markOf_assignment hn.ne_nil hleader, String.ofList_toList] at hmarked
  exact hmarked

theorem marked_print {args : String} (h : '\n' ∉ args.toList) :
    Marked ("print(" ++ args ++ ")") false (.block .print) := by
  have htext : ("print(" ++ args ++ ")").toList =
      ['p', 'r', 'i', 'n', 't'] ++ '(' :: (args.toList ++ [')']) := by simp
  refine marked_append htext (by simp) (by decide) (by decide +kernel) (by simp [h]) ?_
  rw [isHeader, htext, ← List.cons_append, ← List.append_assoc, List.getLast?_concat]
  rfl

theorem marked_leave {test : String} (h : '\n' ∉ test.toList) :
    Marked ("if not (" ++ test ++ "): break") false .leave := by
  have htext : ("if not (" ++ test ++ "): break").toList =
      ['i', 'f'] ++ ' ' :: ("not (".toList ++ test.toList ++ "): break".toList) := by simp
  have hheader : isHeader ("if not (" ++ test ++ "): break").toList = false := by
    rw [isHeader, htext, ← List.cons_append, ← List.append_assoc,
      List.getLast?_append_of_ne_nil _ (by decide)]
    decide
  have hmarked := marked_append htext (by simp) (by decide) isNameChar_space (by simp [h]) hheader
  have hstart : " not (".toList <+: ' ' :: ("not (".toList ++ test.toList ++ "): break".toList) :=
    ⟨test.toList ++ "): break".toList, by simp⟩
  have hstop : "): break".toList <:+ ' ' :: ("not (".toList ++ test.toList ++ "): break".toList) :=
    ⟨' ' :: ("not (".toList ++ test.toList), by simp⟩
  simp only [markOf, beq_self_eq_true, if_true, Bool.false_eq_true, if_false,
    List.isPrefixOf_iff_prefix.2 hstart, List.isSuffixOf_iff_suffix.2 hstop, Bool.and_self] at hmarked
  exact hmarked

/-! ### Spelling statements out -/

section Spelling
variable {o : Options} {known : List String}

@[simp]
theorem piecesAll_append (ss ss' : List (Statement (List Piece))) :
    piecesAll (ss ++ ss') = piecesAll ss ++ piecesAll ss' := by
  induction ss with
  | nil => rfl
  | cons s ss ih => rw [List.cons_append, piecesAll, ih, piecesAll, List.append_assoc]

@[simp]
theorem sayAll_append (ss ss' : List (Statement (List Piece))) : sayAll o known (ss ++ ss') =
    sayAll o known ss ++ sayAll o (learn o known (piecesAll ss)) ss' := by
  induction ss generalizing known with
  | nil => rfl
  | cons s ss ih =>
    rw [List.cons_append, sayAll, ih, sayAll, piecesAll, learn_append, List.cons_append]

theorem mark_say (s : Statement (List Piece)) : (s.say o known).mark = s.mark := by
  obtain ⟨mark, line, suite, branches⟩ := s
  rw [say]
  rfl

theorem exists_of_mem_sayAll {ss : List (Statement (List Piece))} {s' : Statement String}
    (h : s' ∈ sayAll o known ss) : ∃ s ∈ ss, s'.mark = s.mark := by
  induction ss generalizing known with
  | nil => exact nomatch h
  | cons s ss ih =>
    rw [sayAll] at h
    obtain rfl | h := List.mem_cons.1 h
    · exact ⟨s, List.mem_cons_self, mark_say s⟩
    · obtain ⟨s, hs, hmark⟩ := ih h
      exact ⟨s, List.mem_cons_of_mem _ hs, hmark⟩

theorem sayAll_eq_nil_iff (ss : List (Statement (List Piece))) : sayAll o known ss = [] ↔ ss = [] := by
  cases ss <;> simp [sayAll]

end Spelling

theorem markWith_of_forall {text : String} {header : Bool} {m : Mark} (h : Marked text header m)
    {suite : List (Statement String)} (hs : ∀ s ∈ suite, s.mark ≠ .leave) : markWith text suite = m := by
  rw [markWith, h.mark_eq]
  split
  · next hf =>
    simp only [Bool.and_eq_true, Option.any_eq_true] at hf
    obtain ⟨-, s, hmem, hleave⟩ := hf
    exact absurd (eq_of_beq hleave) (hs s (List.mem_of_getLast? hmem))
  · rfl

/-! ### Lines of pieces -/

def Heads (o : Options) (ps : List Piece) (header : Bool) (m : Mark) : Prop :=
  ∀ known, (Scope.of known).Plain →
    (Scope.of (learn o known ps)).Plain ∧ Marked (spell o known ps) header m

/-- The lines read as the statements, whatever names came up before them. -/
def Told (reads : List Line → List (Statement String) → Prop) (o : Options) (lines : List DraftLine)
    (ss : List (Statement (List Piece))) : Prop :=
  lines.flatMap DraftLine.pieces = piecesAll ss ∧
    ∀ known, (Scope.of known).Plain → (Scope.of (learnLines o known lines)).Plain ∧
      reads (spellLines o known lines) (sayAll o known ss)

namespace Told
variable {o : Options} {level : Nat} {lines lines' : List DraftLine} {ps test : List Piece} {m : Mark}
  {suite suite' branches : List (Statement (List Piece))}

theorem nil : Told (Yields level) o [] [] :=
  ⟨rfl, fun _ hk => ⟨hk, .nil⟩⟩

theorem append (h : Told (Yields level) o lines suite) (h' : Told (Yields level) o lines' suite') :
    Told (Yields level) o (lines ++ lines') (suite ++ suite') := by
  refine ⟨by rw [List.flatMap_append, piecesAll_append, h.1, h'.1], fun known hk => ?_⟩
  obtain ⟨hplain, hyields⟩ := h.2 known hk
  obtain ⟨hplain', hyields'⟩ := h'.2 _ hplain
  rw [learnLines_append, spellLines_append, sayAll_append, ← h.1]
  exact ⟨hplain', hyields.append hyields'⟩

theorem eq_nil_iff (h : Told (Yields level) o lines suite) : lines = [] ↔ suite = [] := by
  have hyields := (h.2 [] nofun).2
  rw [← sayAll_eq_nil_iff suite, ← hyields.eq_nil_iff]
  cases lines <;> simp

theorem line (h : Heads o ps false m) (hbranch : m.isBranch = false) :
    Told (Yields level) o [⟨level, ps⟩] [leaf m ps] := by
  refine ⟨by simp [leaf, piecesAll, pieces], fun known hk => ?_⟩
  obtain ⟨hplain, hmarked⟩ := h known hk
  rw [learnLines_cons, learnLines_nil]
  exact ⟨hplain, .line hmarked hbranch⟩

theorem orPass (h : Told (Yields level) o lines suite) :
    Told (Yields level) o (if lines.isEmpty then [⟨level, [.fixed "pass"]⟩] else lines)
      (Statement.orPass suite) := by
  simp only [Statement.orPass, List.isEmpty_iff, h.eq_nil_iff]
  split
  · have hpass : Marked "pass" false .pass :=
      ⟨⟨by decide, by decide, by decide⟩, by decide, by decide +kernel⟩
    have hheads : Heads o [.fixed "pass"] false .pass := fun known hk => by simpa using ⟨hk, hpass⟩
    exact line hheads rfl
  · exact h

theorem headed (h : Heads o ps true m) (hbranch : m.isBranch = false)
    (hsuite : Told (Yields (level + 1)) o lines suite) (hne : suite ≠ []) {m' : Mark}
    (hwith : ∀ known, (Scope.of known).Plain →
      markWith (spell o known ps) (sayAll o (learn o known ps) suite) = m') :
    Told (Yields level) o (⟨level, ps⟩ :: lines) [.node m' ps suite []] := by
  refine ⟨by simp [piecesAll, pieces, hsuite.1], fun known hk => ?_⟩
  obtain ⟨hplain, hmarked⟩ := h known hk
  obtain ⟨hplain', hyields⟩ := hsuite.2 _ hplain
  have hlines := Yields.header hmarked hbranch hyields (mt (sayAll_eq_nil_iff suite).1 hne)
  rw [hwith known hk] at hlines
  rw [learnLines_cons, spellLines_cons]
  exact ⟨hplain', hlines⟩

theorem header (h : Heads o ps true m) (hbranch : m.isBranch = false)
    (hsuite : Told (Yields (level + 1)) o lines suite) (hne : suite ≠ [])
    (hleave : ∀ s ∈ suite, s.mark ≠ .leave) :
    Told (Yields level) o (⟨level, ps⟩ :: lines) [.node m ps suite []] := by
  refine headed h hbranch hsuite hne fun known hk => ?_
  refine markWith_of_forall (h known hk).2 fun s hs => ?_
  obtain ⟨s', hs', hmark⟩ := exists_of_mem_sayAll hs
  exact hmark ▸ hleave s' hs'

theorem doWhile (hsuite : Told (Yields (level + 1)) o lines suite)
    (htest : ∀ known, (Scope.of known).Plain →
      (Scope.of (learn o known test)).Plain ∧ '\n' ∉ (spell o known test).toList) :
    Told (Yields level) o
      (⟨level, [.fixed "while True:"]⟩ :: lines ++
        [⟨level + 1, .fixed "if not (" :: test ++ [.fixed "): break"]⟩])
      [.node (.block .doWhileLoop) [.fixed "while True:"]
        (suite ++ [leaf .leave (.fixed "if not (" :: test ++ [.fixed "): break"])]) []] := by
  have hforever : Heads o [.fixed "while True:"] true (.block .whileLoop) := fun known hk => by
    simpa using ⟨hk, ⟨⟨by decide, by decide, by decide⟩, by decide, mark_forever⟩⟩
  have hleave : Heads o (.fixed "if not (" :: test ++ [.fixed "): break"]) false .leave := fun known hk => by
    obtain ⟨hplain, hunbroken⟩ := htest known hk
    simpa [String.append_assoc] using ⟨hplain, marked_leave hunbroken⟩
  refine headed hforever rfl (hsuite.append (line hleave rfl)) (by simp) fun known _ => ?_
  simp [markWith, sayAll, say, leaf, Statement.mark]

theorem branch (h : Heads o ps true m) (hbranch : m.isBranch = true)
    (hsuite : Told (Yields (level + 1)) o lines suite) (hne : suite ≠ [])
    (hrest : Told (Branches level) o lines' branches) (htest : branches ≠ [] → m.isTest = true) :
    Told (Branches level) o (⟨level, ps⟩ :: lines ++ lines') (.node m ps suite [] :: branches) := by
  refine ⟨by simp [piecesAll, pieces, hsuite.1, hrest.1], fun known hk => ?_⟩
  obtain ⟨hplain, hmarked⟩ := h known hk
  obtain ⟨hplain', hyields⟩ := hsuite.2 _ hplain
  obtain ⟨hplain'', hbranches⟩ := hrest.2 _ hplain'
  have hlines := Branches.cons hmarked hbranch hyields (mt (sayAll_eq_nil_iff suite).1 hne) hbranches
    fun hne => htest (mt (sayAll_eq_nil_iff branches).2 hne)
  have hlearn : learn o known (pieces (.node m ps suite [])) = learnLines o (learn o known ps) lines := by
    simp [pieces, piecesAll, learnLines, hsuite.1]
  rw [List.cons_append, learnLines_cons, learnLines_append, spellLines_cons, spellLines_append, sayAll, hlearn]
  exact ⟨hplain'', hlines⟩

theorem ifBranch (h : Heads o ps true (.block .ifBranch))
    (hsuite : Told (Yields (level + 1)) o lines suite) (hne : suite ≠ [])
    (hbranches : Told (Branches level) o lines' branches) :
    Told (Yields level) o (⟨level, ps⟩ :: lines ++ lines') [.node (.block .ifBranch) ps suite branches] := by
  refine ⟨by simp [piecesAll, pieces, hsuite.1, hbranches.1], fun known hk => ?_⟩
  obtain ⟨hplain, hmarked⟩ := h known hk
  obtain ⟨hplain', hyields⟩ := hsuite.2 _ hplain
  obtain ⟨hplain'', hrest⟩ := hbranches.2 _ hplain'
  have hlines := Yields.ifBranch hmarked hyields (mt (sayAll_eq_nil_iff suite).1 hne) hrest
  rw [List.cons_append, learnLines_cons, learnLines_append, spellLines_cons, spellLines_append, sayAll, say,
    ← hsuite.1]
  exact ⟨hplain'', hlines⟩

end Told

/-! ### The lines of blocks -/

theorem draft_told (t : Tree) : t.told.1 = t.draft :=
  map_fold (fun _ _ _ _ => rfl) t

theorem statement_node (id : BlockId) (face : Face) (slots : List (Slot Tree)) (chain : List Tree) :
    (Tree.node id face slots chain).statement =
      ofFace face (drafts slots) (slots.map (Slot.map Tree.statement)) (chain.map Tree.statement) := by
  have hdraft : (fun t : Tree => t.told.1) = draft := funext draft_told
  have hslots : ∀ {γ : Type} (g : Draft × Statement (List Piece) → γ),
      (slots.map (Slot.map told)).map (Slot.map g) = slots.map (Slot.map fun t => g t.told) := fun g => by
    rw [List.map_map]
    exact List.map_congr_left fun s _ => Slot.map_map told g s
  have htold : (Tree.node id face slots chain).told.2 =
      ofFace face ((slots.map (Slot.map told)).map (Slot.map Prod.fst))
        ((slots.map (Slot.map told)).map (Slot.map Prod.snd)) ((chain.map told).map Prod.snd) :=
    congrArg Prod.snd (Tree.fold_node ..)
  rw [Tree.statement, htold, hslots, hslots, List.map_map, hdraft]
  rfl

variable {o : Options}

def Tells (o : Options) (t : Tree) : Prop :=
  ∀ level, Told (Yields level) o (t.draft.statement level) [t.statement.alone]

def TellsBody (o : Options) (slots : List (Slot Tree)) : Prop :=
  ∀ level, Told (Yields level) o (Draft.bodyLines level (drafts slots))
    (ofSlots (slots.map (Slot.map Tree.statement)))

theorem heads_token (o : Options) (raw : String) : Heads o [.token raw] false .bare := fun known hk => by
  simpa using ⟨hk, (operand_token (.of known) raw).marked⟩

theorem tells_entryLines {entries : List (Entry Tree)}
    (h : ∀ t ∈ entries.filterMap Entry.block?, Tells o t) (level : Nat) :
    Told (Yields level) o ((entries.map (Entry.map draft)).flatMap (Draft.entryLines level))
      ((entries.map (Entry.map Tree.statement)).filterMap ofEntry?) := by
  induction entries with
  | nil => exact .nil
  | cons e entries ih =>
    rw [List.map_cons, List.map_cons, List.flatMap_cons, List.filterMap_cons]
    cases e with
    | line text =>
      simp only [Entry.map, Draft.entryLines, ofEntry?]
      split
      · exact ih h
      · exact Told.append (.line (heads_token o text) rfl) (ih h)
    | block t =>
      obtain ⟨ht, hrest⟩ := List.forall_mem_cons.1 h
      exact (ht level).append (ih hrest)

theorem tells_bodyLines {slots : List (Slot Tree)} (h : ∀ t ∈ slots.flatMap Slot.children, Tells o t) :
    TellsBody o slots := by
  intro level
  rw [Draft.bodyLines, ofSlots, drafts, bodyOf_map, bodyOf_map]
  exact tells_entryLines (fun t ht => h t (mem_children_of_bodyOf ht)) level

/-! #### What stands in the lines of blocks -/

section Heads
variable {known : List String}

theorem valued_test (hk : (Scope.of known).Plain) (slots : List (Slot Tree)) :
    Valued (spelled o known (Draft.slot (drafts slots) "condition" "False")) := by
  rw [← slot_draft]
  exact valued_condition hk slots

theorem heads_test (start : String) {w : List Char} (hstart : start.toList = w ++ [' ']) (hne : w ≠ [])
    (hw : w.all isNameChar = true) {m : Mark} (hm : ∀ rest, markOf w rest true = m)
    (slots : List (Slot Tree)) :
    Heads o (.fixed start :: Draft.slot (drafts slots) "condition" "False" ++ [.fixed ":"]) true m := by
  intro known hk
  obtain ⟨hplain, htest⟩ := valued_test (o := o) hk slots
  have htext : (start ++ spell o known (Draft.slot (drafts slots) "condition" "False") ++ ":").toList =
      w ++ ' ' :: ((spell o known (Draft.slot (drafts slots) "condition" "False")).toList ++ [':']) := by
    simp [hstart]
  have hmarked := marked_header _ htext hne hw htest.unbroken
  rw [hm] at hmarked
  have hboth := And.intro hplain hmarked
  simpa [spelled, String.append_assoc] using hboth

theorem heads_else (o : Options) : Heads o [.fixed "else:"] true (.block .elseBranch) := fun known hk => by
  have hmarked : Marked "else:" true (.block .elseBranch) :=
    ⟨⟨by decide, by decide, by decide⟩, by decide, by decide +kernel⟩
  simpa using ⟨hk, hmarked⟩

theorem heads_loose (o : Options) {kind : Kind} (hkind : kind.isConnector = true) :
    Heads o [.fixed ("pass  # '" ++ kind.name ++ "' block is not attached to an if")] false (.loose kind) := by
  intro known hk
  have hmarked : Marked ("pass  # '" ++ kind.name ++ "' block is not attached to an if") false (.loose kind) := by
    cases kind with
    | elifBranch | elseBranch => exact ⟨⟨by decide, by decide, by decide⟩, by decide, by decide +kernel⟩
    | assignment | operation | print | ifBranch | whileLoop | doWhileLoop | forLoop => exact nomatch hkind
  simpa using ⟨hk, hmarked⟩

theorem heads_assignment (face : Face) (slots : List (Slot Tree)) :
    Heads o (.named (identifier face.name "var") :: .fixed " = " ::
        (slotPieces Draft.value "value" (drafts slots)).getD
          (face.override.elim [.fixed "None"] fun raw => [.token raw])) false
      (.assignment (identifier face.name "var")) := by
  intro known hk
  have hn : Operand (identifier face.name "var").toList := operand_identifier (Or.inr operand_var)
  have hname : ∀ c ∈ (identifier face.name "var").toList, isNameChar c = true :=
    isNameChar_of_mem_identifier (List.all_eq_true.1 (by decide))
  -- the name is known by the time its value is written
  have hplain := hk.register hn.unbroken
  rw [Scope.register_of] at hplain
  have hvalue : Valued (spelled o (known ++ [identifier face.name "var"])
      ((slotPieces Draft.value "value" (drafts slots)).getD
        (face.override.elim [.fixed "None"] fun raw => [.token raw]))) := by
    cases hpieces : slotPieces Draft.value "value" (drafts slots) with
    | some ps =>
      have htext : slotText (.of (known ++ [identifier face.name "var"])) false "value" slots =
          some (spelled o (known ++ [identifier face.name "var"]) ps) := by
        rw [slotText_drafts fun t _ => expression_draft t]
        exact congrArg (Option.map _) hpieces
      exact (valued_slotText hplain false "value" (fun t _ => expressed t) htext).1
    | none =>
      cases face.override with
      | none => simpa [spelled, Valued] using ⟨hplain, operand_none.toSpelled⟩
      | some raw => simpa [spelled, Valued] using ⟨hplain, (operand_token _ raw).toSpelled⟩
  obtain ⟨hplain', hspelled⟩ := hvalue
  have hboth := And.intro hplain' (marked_assignment hn (List.all_eq_true.2 hname) hspelled)
  simpa [spelled, String.append_assoc] using hboth

theorem heads_operation (id : BlockId) (face : Face) (slots : List (Slot Tree)) (chain : List Tree) :
    Heads o (Draft.valueOf face (drafts slots)) false .bare := by
  intro known hk
  have hvalue := expressed (.node id face slots chain) (.of known) hk
  rw [expression_draft, draft_node] at hvalue
  exact ⟨hvalue.1.1, hvalue.1.2.marked⟩

theorem heads_print (face : Face) (slots : List (Slot Tree)) :
    Heads o (.fixed "print(" :: printedPieces Draft.value face (drafts slots) ++ [.fixed ")"]) false
      (.block .print) := by
  intro known hk
  have hargs := plain_printArguments hk face slots
  rw [printArguments_draft (o := o)] at hargs
  have hboth := And.intro hargs.1 (marked_print hargs.2)
  simpa [spelled, String.append_assoc] using hboth

theorem heads_for (hv : ∀ c ∈ o.loopVariable.toList, isNameChar c = true) (face : Face)
    (slots : List (Slot Tree)) :
    Heads o (.fixed "for " :: loopPiece face :: .fixed " in range(" :: Draft.range (drafts slots) ++
      [.fixed "):"]) true (.block .forLoop) := by
  intro known hk
  have hname := plain_loopVariable hv hk face
  have hrange := plain_rangeArguments (hk.register hname) slots
  rw [Scope.register_of, rangeArguments_draft (o := o)] at hrange
  have hboth := And.intro hrange.1 (marked_for hname hrange.2)
  rcases loopPiece_cases (o := o) known face with ⟨hpiece, hloop⟩ | ⟨name, hpiece, hloop⟩ <;>
    simpa [hpiece, hloop, spelled, String.append_assoc] using hboth

end Heads

/-! #### Blocks -/

theorem orPass_ne_nil (suite : List (Statement (List Piece))) : Statement.orPass suite ≠ [] := by
  rw [Statement.orPass]
  split
  · exact List.cons_ne_nil _ _
  · next h => exact fun he => h (List.isEmpty_iff.2 he)

theorem exists_ofFace (t : Tree) : ∃ slots chain, t.statement = ofFace t.face (drafts t.slots) slots chain := by
  obtain ⟨id, face, slots, chain⟩ := t
  exact ⟨_, _, statement_node id face slots chain⟩

theorem mark_alone_ne_leave (t : Tree) : t.statement.alone.mark ≠ .leave := by
  obtain ⟨slots, chain, h⟩ := exists_ofFace t
  rw [h, ofFace.eq_def]
  cases t.face.kind <;> simp [alone, leaf, Statement.mark, Kind.isConnector]

theorem mark_ofSlots_ne_leave (slots : List (Slot Tree)) :
    ∀ s ∈ ofSlots (slots.map (Slot.map Tree.statement)), s.mark ≠ .leave := by
  intro s hs
  rw [ofSlots, bodyOf_map, List.filterMap_map] at hs
  obtain ⟨e, -, he⟩ := List.mem_filterMap.1 hs
  cases e with
  | block t =>
    obtain rfl := Option.some.inj he
    exact mark_alone_ne_leave t
  | line text =>
    simp only [Function.comp_apply, Entry.map, ofEntry?] at he
    split at he
    · cases he
    · obtain rfl := Option.some.inj he
      simp [leaf, Statement.mark]

theorem mark_orPass_ne_leave (slots : List (Slot Tree)) :
    ∀ s ∈ Statement.orPass (ofSlots (slots.map (Slot.map Tree.statement))), s.mark ≠ .leave := by
  rw [Statement.orPass]
  split
  · exact List.forall_mem_singleton.2 nofun
  · exact mark_ofSlots_ne_leave slots

theorem told_loop {level : Nat} {ps : List Piece} {slots : List (Slot Tree)} {kind : Kind}
    (h : Heads o ps true (.block kind)) (hkind : kind.isConnector = false) (hbody : TellsBody o slots) :
    Told (Yields level) o (⟨level, ps⟩ :: Draft.suite (level + 1) (drafts slots))
      [.node (.block kind) ps (Statement.orPass (ofSlots (slots.map (Slot.map Tree.statement)))) []] :=
  .header h hkind (hbody (level + 1)).orPass (orPass_ne_nil _) (mark_orPass_ne_leave slots)

theorem told_branches {ts : List Tree} (hbody : ∀ t ∈ ts, TellsBody o t.slots)
    (hconn : ∀ t ∈ ts, t.kind.isConnector = true)
    (hlast : ts.Pairwise fun t _ => t.kind ≠ .elseBranch) (level : Nat) :
    Told (Branches level) o ((ts.map draft).flatMap fun d => d.branch level) (ts.map Tree.statement) := by
  induction ts with
  | nil => exact ⟨rfl, fun _ hk => ⟨hk, [], rfl, List.forall_mem_nil _, .nil, List.forall_mem_nil _, rfl⟩⟩
  | cons t ts ih =>
    obtain ⟨id, face, slots, chain⟩ := t
    obtain ⟨hfirst, hrest⟩ := List.pairwise_cons.1 hlast
    have hkind : face.kind.isConnector = true := hconn _ List.mem_cons_self
    have hbranches := ih (fun t ht => hbody t (List.mem_cons_of_mem _ ht))
      (fun t ht => hconn t (List.mem_cons_of_mem _ ht)) hrest
    have hsuite : Told (Yields (level + 1)) o (Draft.suite (level + 1) (drafts slots))
        (Statement.orPass (ofSlots (slots.map (Slot.map Tree.statement)))) :=
      (hbody _ List.mem_cons_self (level + 1)).orPass
    rw [List.map_cons, List.map_cons, List.flatMap_cons, draft_node, statement_node, ofFace.eq_def]
    simp only [Draft.ofFace, Draft.branchOf]
    rcases hk : face.kind with _ | _ | _ | _ | _ | _ | _ | _ | _
    case elifBranch =>
      have hmarked : Heads o _ true (.block .elifBranch) :=
        heads_test "elif " (w := "elif".toList) (by simp) (by simp) (by decide) (fun _ => rfl) slots
      exact .branch hmarked rfl hsuite (orPass_ne_nil _) hbranches fun _ => rfl
    case elseBranch =>
      have hnone : ts = [] := List.eq_nil_iff_forall_not_mem.2 fun t ht => hfirst t ht hk
      subst hnone
      exact .branch (heads_else o) rfl hsuite (orPass_ne_nil _) hbranches fun hne => absurd rfl hne
    all_goals simp [hk, Kind.isConnector] at hkind

theorem tells (hv : ∀ c ∈ o.loopVariable.toList, isNameChar c = true) {t : Tree} (h : t.Legal) :
    Tells o t ∧ TellsBody o t.slots := by
  induction t using Tree.induction with
  | step t ih =>
    obtain ⟨id, face, slots, chain⟩ := t
    have hbody : TellsBody o slots := tells_bodyLines fun t ht =>
      have hmem := List.mem_append_left chain ht
      (ih t hmem (h.of_mem_children hmem)).1
    refine ⟨fun level => ?_, hbody⟩
    rw [draft_node, statement_node, ofFace.eq_def]
    simp only [Draft.ofFace, Draft.statementOf]
    rcases hk : face.kind with _ | _ | _ | _ | _ | _ | _ | _ | _
    case assignment => exact .line (heads_assignment face slots) rfl
    case operation => exact .line (heads_operation id face slots chain) rfl
    case print => exact .line (heads_print face slots) rfl
    case ifBranch =>
      have hmarked : Heads o _ true (.block .ifBranch) :=
        heads_test "if " (w := "if".toList) (by simp) (by simp) (by decide) (fun _ => rfl) slots
      -- the `if` writes the lines of its branches, so of what hangs off it only the bodies are needed
      have hchain : ∀ t ∈ chain, TellsBody o t.slots := fun t ht =>
        have hmem := Tree.mem_children.2 (Or.inr ht)
        (ih t hmem (h.of_mem_children hmem)).2
      cases h with
      | node _ _ _ _ hconn hlast _ _ =>
        exact .ifBranch hmarked (hbody (level + 1)).orPass (orPass_ne_nil _)
          (told_branches hchain hconn hlast level)
    case elifBranch | elseBranch => exact .line (heads_loose o rfl) rfl
    case whileLoop =>
      have hmarked : Heads o _ true (.block .whileLoop) :=
        heads_test "while " (w := "while".toList) (by simp) (by simp) (by decide) (fun _ => rfl) slots
      exact told_loop hmarked rfl hbody
    case doWhileLoop =>
      exact (hbody (level + 1)).doWhile fun known hk =>
        have htest := valued_test (o := o) hk slots
        ⟨htest.1, htest.2.unbroken⟩
    case forLoop => exact told_loop (heads_for hv face slots) rfl hbody

theorem told_draftLines (hv : ∀ c ∈ o.loopVariable.toList, isNameChar c = true) {ts : List Tree}
    (h : ∀ t ∈ ts, t.Legal) :
    Told (Yields 0) o (draftLines ts) (ts.map fun t => t.statement.alone) := by
  induction ts with
  | nil => exact .nil
  | cons t ts ih =>
    obtain ⟨ht, hts⟩ := List.forall_mem_cons.1 h
    exact ((tells hv ht).1 0).append (ih hts)

theorem Yields.reads_back {lines : List Line} {suite : List (Statement String)} (h : Yields 0 lines suite)
    (hw : 0 < o.indentWidth) :
    (∀ row ∈ rows (render o lines), o.indentWidth ∣ margin row) ∧
      Indented 0 (linesOf o.indentWidth (render o lines)) ∧
        statementsOf (nestsOf (linesOf o.indentWidth (render o lines))) = suite := by
  obtain ⟨ns, rfl, ho, hlegal, rfl⟩ := h
  have hreadable : ∀ line ∈ ns.flatMap (Nest.lines 0), Readable line.text.toList := by
    intro line hline
    obtain ⟨n, hn, hline⟩ := List.mem_flatMap.1 hline
    exact (hlegal n hn).readable 0 line hline
  rw [linesOf_render hw hreadable, rows_render (fun line hl => (hreadable line hl).ne_nil)
    (fun line hl => (hreadable line hl).unbroken), nestsOf_lines]
  refine ⟨?_, Nest.indented ho hlegal 0, rfl⟩
  refine List.forall_mem_map.2 fun line hline => ?_
  rw [(margin_render (hreadable line hline)).1]
  exact Nat.dvd_mul_left _ _

end Python

namespace Canvas
open Python

/-- The indentation of a program is in order, and reading it back gives the forest of its canvas, with each
line spelled out from the names that came up before it. -/
theorem Reachable.program_reads_back {c : Canvas} (h : c.Reachable) {o : Options}
    (hw : 0 < o.indentWidth) (hv : o.loopVariable.toList.all isNameChar = true) :
    let source := (c.program o).source
    (∀ row ∈ rows source, o.indentWidth ∣ margin row) ∧
      Indented 0 (linesOf o.indentWidth source) ∧
        statementsOf (nestsOf (linesOf o.indentWidth source)) =
          Statement.sayAll o [] (c.forest.map fun r => r.tree.statement.alone) := by
  have hlegal : ∀ t ∈ c.forest.map Root.tree, t.Legal :=
    List.forall_mem_map.2 fun r hr => h.sound.legal_of_mem_forest hr
  obtain ⟨-, htold⟩ := told_draftLines (List.all_eq_true.1 hv) hlegal
  have hyields := (htold [] nofun).2.reads_back hw
  rw [List.map_map] at hyields
  rw [program, programOf_eq]
  exact hyields

theorem program_reads_back_branching :
    let edits : List Edit :=
      [.instantiate .assignment .origin, .setName 1 "x", .instantiate .ifBranch ⟨10, 20⟩,
        .instantiate .elseBranch .origin, .attachConnector 3 2, .instantiateInto .operation ⟨2, 0⟩,
        .pushLine ⟨2, 1⟩ "x", .pushLine ⟨2, 1⟩ "y", .instantiateInto .doWhileLoop ⟨2, 1⟩]
    let c := Edit.run (withBounds ⟨0, 0, 800, 600⟩) edits
    let source := (c.program {}).source
    c.Reachable ∧ (∀ row ∈ rows source, 4 ∣ margin row) ∧ Indented 0 (linesOf 4 source) ∧
      statementsOf (nestsOf (linesOf 4 source)) =
        [.leaf (.assignment "x") "x = None",
          .node (.block .ifBranch) "if 0 + 0:"
            [.leaf .bare "x", .leaf .bare "'y'",
              .node (.block .doWhileLoop) "while True:" [.leaf .leave "if not (False): break"] []]
            [.node (.block .elseBranch) "else:" [.leaf .pass "pass"] []]] := by
  intro edits c source
  have hc : c.Reachable := Reachable.run (.start _) _
  obtain ⟨hrows, hindented, hread⟩ := Reachable.program_reads_back hc (o := {}) (by decide) (by decide)
  refine ⟨hc, hrows, hindented, hread.trans ?_⟩
  decide +kernel

end Canvas
end BlockCanvas
