import BlockCanvas.Proofs.JsonCodec
import BlockCanvas.Proofs.Trimming

/-!
Neither ids nor white space around typed text show in a program: each part of it is the same for a tree
under other ids whose texts say the same when they are trimmed. So the copy of a canvas that comes back from
a document has the program of the canvas, but for the names that come back.
-/
namespace BlockCanvas

structure Wording where
  literal : String → String
  line : String → String

namespace Wording

def same : Wording :=
  ⟨id, id⟩

/-- The words only differ in the white space around them. -/
structure Faint (w : Wording) : Prop where
  literal : ∀ raw, Text.trim (w.literal raw).toList = Text.trim raw.toList
  line : ∀ raw, Text.trim (w.line raw).toList = Text.trim raw.toList

theorem faint_same : same.Faint :=
  ⟨fun _ => rfl, fun _ => rfl⟩

end Wording

variable {β : Type}

def Entry.reword (w : Wording) : Entry β → Entry β
  | .block b => .block b
  | .line text => .line (w.line text)

def Content.reword (w : Wording) : Content β → Content β
  | .value child literal => .value child (w.literal literal)
  | .body entries => .body (entries.map (Entry.reword w))

def Slot.reword (w : Wording) (s : Slot β) : Slot β :=
  ⟨s.name, s.content.reword w⟩

theorem Slot.reword_same : (Slot.reword .same : Slot β → Slot β) = id := by
  have hentry : (Entry.reword .same : Entry β → Entry β) = id := by
    funext e
    cases e <;> rfl
  funext ⟨name, content⟩
  cases content with
  | value child literal => rfl
  | body entries => simp [Slot.reword, Content.reword, hentry]

namespace Tree

def reworded (f : BlockId → BlockId) (w : Wording) : Tree → Tree :=
  fold fun id face slots chain => .node (f id) face (slots.map (Slot.reword w)) chain

def rewordedSlots (f : BlockId → BlockId) (w : Wording) (slots : List (Slot Tree)) : List (Slot Tree) :=
  slots.map fun s => (s.map (reworded f w)).reword w

theorem reworded_node (f : BlockId → BlockId) (w : Wording) (id : BlockId) (face : Face)
    (slots : List (Slot Tree)) (chain : List Tree) :
    (node id face slots chain).reworded f w =
      .node (f id) face (rewordedSlots f w slots) (chain.map (reworded f w)) := by
  rw [reworded, fold_node, List.map_map]
  rfl

theorem rewordedSlots_cons (f : BlockId → BlockId) (w : Wording) (s : Slot Tree)
    (slots : List (Slot Tree)) :
    rewordedSlots f w (s :: slots) = (s.map (reworded f w)).reword w :: rewordedSlots f w slots := rfl

theorem kind_reworded (f : BlockId → BlockId) (w : Wording) (t : Tree) :
    (t.reworded f w).kind = t.kind := by
  obtain ⟨id, face, slots, chain⟩ := t
  rw [reworded_node]
  rfl

end Tree

namespace Python
open Tree

variable {f : BlockId → BlockId} {w : Wording} {o : Options}

theorem slotNamed?_reworded (name : String) (slots : List (Slot Tree)) :
    slotNamed? name (rewordedSlots f w slots) =
      (slotNamed? name slots).map fun s => (s.map (reworded f w)).reword w := by
  rw [slotNamed?, slotNamed?, rewordedSlots, List.find?_map]
  rfl

theorem literal?_reworded (s : Slot Tree) :
    ((s.map (reworded f w)).reword w).literal? = s.literal?.map w.literal := by
  obtain ⟨name, _ | _⟩ := s <;> rfl

theorem isPopulated_reworded (hw : w.Faint) (s : Slot Tree) :
    ((s.map (reworded f w)).reword w).isPopulated = s.isPopulated := by
  obtain ⟨name, child | entries⟩ := s
  · have hblank := fun raw => Text.allBlank_congr (hw.literal raw)
    cases child <;> simp [Slot.map, Content.map, Slot.reword, Content.reword, Slot.isPopulated, hblank]
  · cases entries <;> rfl

/-! ### Expressions -/

theorem slotText_rewordedSlots (hw : w.Faint) {slots : List (Slot Tree)}
    (h : ∀ t ∈ slots.flatMap Slot.children, ∀ s, expression s (t.reworded f w) = expression s t)
    (s : Scope) (operand : Bool) (name : String) :
    slotText s operand name (rewordedSlots f w slots) = slotText s operand name slots := by
  induction slots with
  | nil => rfl
  | cons slot slots ih =>
    rw [List.flatMap_cons, List.forall_mem_append] at h
    have hrest := ih h.2
    rw [rewordedSlots_cons]
    obtain ⟨n, ⟨child, literal⟩ | entries⟩ := slot
    · cases child with
      | none =>
        have hblank := Text.allBlank_congr (hw.literal literal)
        have htoken := token_congr s (hw.literal literal)
        simp only [Slot.map, Content.map, Option.map_none, Slot.reword, Content.reword, slotText, hblank,
          htoken, hrest]
      | some t =>
        have ht := h.1 t (List.mem_singleton_self _) s
        simp only [Slot.map, Content.map, Option.map_some, Slot.reword, Content.reword, slotText, hrest,
          ht, kind_reworded]
    · simp only [Slot.map, Content.map, Slot.reword, Content.reword, slotText, hrest]

theorem expression_reworded (hw : w.Faint) (t : Tree) :
    ∀ s, expression s (t.reworded f w) = expression s t := by
  induction t using Tree.induction with
  | step t ih =>
    intro s
    obtain ⟨id, face, slots, chain⟩ := t
    have hslots : ∀ s operand name,
        slotText s operand name (rewordedSlots f w slots) = slotText s operand name slots :=
      slotText_rewordedSlots hw fun t ht => ih t (List.mem_append_left _ ht)
    rw [reworded_node]
    simp only [expression, hslots]

theorem slotText_reworded (hw : w.Faint) (s : Scope) (operand : Bool) (name : String)
    (slots : List (Slot Tree)) :
    slotText s operand name (rewordedSlots f w slots) = slotText s operand name slots :=
  slotText_rewordedSlots hw (fun t _ => expression_reworded hw t) s operand name

theorem condition_reworded (hw : w.Faint) (s : Scope) (slots : List (Slot Tree)) :
    condition s (rewordedSlots f w slots) = condition s slots := by
  rw [condition, condition, slotText_reworded hw]

theorem trim_printedText (hw : w.Faint) (face : Face) (slots : List (Slot Tree)) :
    Text.trim (printedText face (rewordedSlots f w slots)).toList =
      Text.trim (printedText face slots).toList := by
  rw [printedText, printedText, slotNamed?_reworded]
  cases slotNamed? "value" slots with
  | none => rfl
  | some slot =>
    simp only [Option.map_some, Option.bind_some, literal?_reworded]
    cases slot.literal? with
    | none => rfl
    | some literal =>
      simp only [Option.map_some, Text.allBlank_congr (hw.literal literal)]
      split
      · rfl
      · exact hw.literal literal

theorem printArguments_reworded (hw : w.Faint) (s : Scope) (face : Face) (slots : List (Slot Tree)) :
    printArguments s face (rewordedSlots f w slots) = printArguments s face slots := by
  have htext := arguments_congr s (trim_printedText (f := f) hw face slots)
  rw [printArguments, printArguments, slotNamed?_reworded, htext]
  rcases slotNamed? "value" slots with _ | ⟨name, child | entries⟩
  · rfl
  · cases child with
    | none => rfl
    | some t => exact expression_reworded hw t s
  · rfl

theorem rangeArguments_reworded (hw : w.Faint) (s : Scope) (slots : List (Slot Tree)) :
    rangeArguments s (rewordedSlots f w slots) = rangeArguments s slots := by
  have hpopulated : ∀ name, (slotNamed? name (rewordedSlots f w slots)).any Slot.isPopulated =
      (slotNamed? name slots).any Slot.isPopulated := by
    intro name
    rw [slotNamed?_reworded]
    cases slotNamed? name slots with
    | none => rfl
    | some slot => exact isPopulated_reworded hw slot
  simp only [rangeArguments, slotText_reworded hw, hpopulated]

/-! ### Statements -/

theorem entryLines_reworded (hw : w.Faint) {entries : List (Entry Tree)}
    (h : ∀ t ∈ entries.filterMap Entry.block?, ∀ level s,
      statement o level s (t.reworded f w) = statement o level s t) (level : Nat) (s : Scope) :
    entryLines o level s ((entries.map (Entry.map (reworded f w))).map (Entry.reword w)) =
      entryLines o level s entries := by
  induction entries generalizing s with
  | nil => rfl
  | cons entry entries ih =>
    cases entry with
    | block t =>
      obtain ⟨ht, hrest⟩ := List.forall_mem_cons.1 h
      simp only [List.map_cons, Entry.map, Entry.reword, entryLines, ht, ih hrest]
    | line text =>
      have hblank := Text.allBlank_congr (hw.line text)
      have htoken := token_congr s (hw.line text)
      simp only [List.map_cons, Entry.map, Entry.reword, entryLines, hblank, htoken, ih h]

theorem bodyLines_reworded (hw : w.Faint) {slots : List (Slot Tree)}
    (h : ∀ t ∈ slots.flatMap Slot.children, ∀ level s,
      statement o level s (t.reworded f w) = statement o level s t) (level : Nat) (s : Scope) :
    bodyLines o level s (rewordedSlots f w slots) = bodyLines o level s slots := by
  induction slots with
  | nil => rfl
  | cons slot slots ih =>
    rw [List.flatMap_cons, List.forall_mem_append] at h
    have hrest := ih h.2
    rw [rewordedSlots_cons]
    obtain ⟨n, child | entries⟩ := slot
    · simp only [Slot.map, Content.map, Slot.reword, Content.reword, bodyLines, hrest]
    · have hentries := entryLines_reworded hw h.1 level s
      simp only [Slot.map, Content.map, Slot.reword, Content.reword, bodyLines, hrest, hentries]

theorem branches_reworded (hw : w.Faint) {ts : List Tree}
    (h : ∀ t ∈ ts, ∀ level s,
      bodyLines o level s (rewordedSlots f w t.slots) = bodyLines o level s t.slots)
    (level : Nat) (s : Scope) :
    branches o level s (ts.map (reworded f w)) = branches o level s ts := by
  induction ts generalizing s with
  | nil => rfl
  | cons t ts ih =>
    rw [List.forall_mem_cons] at h
    obtain ⟨id, face, slots, chain⟩ := t
    have hbody : ∀ level s, bodyLines o level s (rewordedSlots f w slots) = bodyLines o level s slots :=
      h.1
    have hcondition := fun s => condition_reworded (f := f) hw s slots
    rw [List.map_cons, reworded_node]
    simp only [branches, hcondition, hbody, ih h.2]

/-- The lines of a connector are those of its `if`, so its body goes through the induction by itself. -/
theorem statement_reworded (hw : w.Faint) (t : Tree) :
    (∀ level s, statement o level s (t.reworded f w) = statement o level s t) ∧
      ∀ level s, bodyLines o level s (rewordedSlots f w t.slots) = bodyLines o level s t.slots := by
  induction t using Tree.induction with
  | step t ih =>
    obtain ⟨id, face, slots, chain⟩ := t
    have hbody : ∀ level s, bodyLines o level s (rewordedSlots f w slots) = bodyLines o level s slots :=
      bodyLines_reworded hw fun t ht => (ih t (List.mem_append_left _ ht)).1
    have hbranches : ∀ level s,
        branches o level s (chain.map (reworded f w)) = branches o level s chain :=
      branches_reworded hw fun t ht => (ih t (List.mem_append_right _ ht)).2
    refine ⟨fun level s => ?_, hbody⟩
    have hexpression := expression_reworded (f := f) hw (.node id face slots chain)
    rw [reworded_node] at hexpression ⊢
    simp only [statement, slotText_reworded hw, condition_reworded hw, printArguments_reworded hw,
      rangeArguments_reworded hw, hbody, hbranches]
    cases face.kind with
    | operation =>
      exact congrArg (fun e : Scope × String => (e.1, [(⟨level, e.2⟩ : Line)])) (hexpression s)
    | assignment | print | ifBranch | elifBranch | elseBranch | whileLoop | doWhileLoop | forLoop => rfl

theorem forestLines_reworded (hw : w.Faint) (s : Scope) (ts : List Tree) :
    forestLines o s (ts.map (reworded f w)) = forestLines o s ts := by
  induction ts generalizing s with
  | nil => rfl
  | cons t ts ih => simp only [List.map_cons, forestLines, (statement_reworded hw t).1, ih]

theorem programOf_reworded (hw : w.Faint) (ts : List Tree) :
    programOf o (ts.map (reworded f w)) = programOf o ts := by
  rw [programOf, programOf, forestLines_reworded hw]

theorem programOf_recast (ts : List Tree) :
    programOf o (ts.map (Tree.recast f id)) = programOf o ts := by
  have hsame : Tree.recast f id = reworded f .same := by
    funext t
    rw [reworded, Slot.reword_same, recast]
    simp only [List.map_id, id_eq]
  rw [hsame, programOf_reworded Wording.faint_same]

end Python
end BlockCanvas

namespace BlockCanvas

/-! ### Canvases -/

theorem Tree.recast_recast (f f' : BlockId → BlockId) (g g' : Face → Face) (t : Tree) :
    (t.recast f g).recast f' g' = t.recast (f' ∘ f) (g' ∘ g) := by
  induction t using Tree.induction with
  | step t ih =>
    obtain ⟨id, face, slots, chain⟩ := t
    have hslots : ∀ s ∈ slots, (Slot.map (recast f' g') ∘ Slot.map (recast f g)) s =
        s.map (recast (f' ∘ f) (g' ∘ g)) := by
      intro s hs
      rw [Function.comp_apply, Slot.map_map]
      exact Slot.map_congr fun k hk =>
        ih k (List.mem_append_left _ (List.mem_flatMap.2 ⟨s, hs, hk⟩))
    have hchain : ∀ k ∈ chain, (recast f' g' ∘ recast f g) k = k.recast (f' ∘ f) (g' ∘ g) :=
      fun k hk => ih k (List.mem_append_right _ hk)
    rw [recast_node, recast_node, recast_node, List.map_map, List.map_map,
      List.map_congr_left hslots, List.map_congr_left hchain]
    rfl

namespace Canvas
variable {c c' : Canvas} {f : BlockId → BlockId}

def restored (c : Canvas) : Canvas :=
  { c with blocks := c.blocks.map fun b => { b with toFace := b.toFace.restored } }

theorem block?_restored (c : Canvas) (x : BlockId) :
    c.restored.block? x = (c.block? x).map fun b => { b with toFace := b.toFace.restored } := by
  rw [block?, restored, List.find?_map]
  rfl

theorem grow_restored (c : Canvas) (n : Nat) (x : BlockId) :
    c.restored.grow n x = (c.grow n x).map (Tree.recast id Face.restored) := by
  induction n generalizing x with
  | zero => rfl
  | succ n ih =>
    have hgrow : c.restored.grow n = fun x => (c.grow n x).map (Tree.recast id Face.restored) :=
      funext ih
    rw [grow, grow, block?_restored, Option.map_map, Option.map_map, hgrow]
    refine congrArg (fun g => (c.block? x).map g) (funext fun b => ?_)
    have hslots : ∀ s : Slot BlockId, (s.filterMap (c.grow n)).map (Tree.recast id Face.restored) =
        s.filterMap fun x => (c.grow n x).map (Tree.recast id Face.restored) := by
      intro s
      rw [Slot.map_eq_filterMap, Slot.filterMap_filterMap]
      simp only [Option.map_eq_bind]
      rfl
    simp only [Function.comp_apply, Tree.recast_node, List.map_map, List.map_filterMap, id_eq,
      Function.comp_def, hslots]

theorem trees_restored (c : Canvas) :
    c.restored.forest.map Root.tree = c.forest.map fun r => r.tree.recast id Face.restored := by
  have htree : ∀ x, c.restored.tree? x = (c.tree? x).map (Tree.recast id Face.restored) := by
    intro x
    rw [tree?, tree?, grow_restored, size, size, restored, List.length_map]
  have hroot : ∀ x, (c.restored.root? x).map Root.tree =
      (c.root? x).map fun r => r.tree.recast id Face.restored := by
    intro x
    rw [root?, root?, block?_restored, htree]
    cases c.block? x <;> cases c.tree? x <;> rfl
  rw [forest, forest, List.map_filterMap, List.map_filterMap]
  exact List.filterMap_congr fun x _ => hroot x

theorem restored_eq_self
    (h : ∀ b ∈ c.blocks, b.kind = .assignment ∨ b.kind = .forLoop → b.name ≠ "") : c.restored = c := by
  have hblocks : (c.blocks.map fun b => { b with toFace := b.toFace.restored }) = c.blocks := by
    refine (List.map_congr_left fun b hb => ?_).trans (List.map_id _)
    have hface : b.toFace.restored = b.toFace := by
      rw [Face.restored, if_neg]
      intro hcond
      simp only [Bool.and_eq_true, Bool.or_eq_true, beq_iff_eq, String.isEmpty_iff] at hcond
      exact h b hb hcond.2 hcond.1
    rw [hface]
    rfl
  rw [restored, hblocks]

theorem programOf_restored (c : Canvas) (f : BlockId → BlockId) (o : Python.Options) :
    Python.programOf o (c.forest.map fun r => r.tree.recast f Face.restored) = c.restored.program o := by
  have htrees : (c.forest.map fun r => r.tree.recast f Face.restored) =
      (c.restored.forest.map Root.tree).map (Tree.recast f id) := by
    rw [trees_restored, List.map_map]
    refine List.map_congr_left fun r _ => ?_
    rw [Function.comp_apply, Tree.recast_recast]
    rfl
  rw [Canvas.program, htrees, Python.programOf_recast]

end Canvas
end BlockCanvas
