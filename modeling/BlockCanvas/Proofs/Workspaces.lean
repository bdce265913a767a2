import BlockCanvas.Document.OfXml
import BlockCanvas.Proofs.Sketch
import BlockCanvas.Proofs.Traversal
import BlockCanvas.Proofs.XmlReading

/-!
What a workspace says, read off its elements without building anything: each block element says a block,
each line element in a slot a line of that slot, and slot elements of one name speak of one slot. A
workspace that is accepted says just what the canvas holds, unless a line stands in a slot that is read
as a value or a value slot is given two blocks (`clear`): the line is dropped, and the first of the
blocks is evicted to the canvas.
-/
namespace BlockCanvas

namespace Xml.Node

def children : Node → List Node
  | .element _ _ children => children
  | .text _ => []

theorem sizeOf_lt_of_mem_children {n part : Node} (h : part ∈ n.children) : sizeOf part < sizeOf n := by
  cases n with
  | text s => cases h
  | element name attributes children =>
    have hlt := List.sizeOf_lt_of_mem (show part ∈ children from h)
    simp only [element.sizeOf_spec]
    omega

end Xml.Node

namespace Document

open Xml (Node)

/-! ### What is said -/

def isLineElement : Node → Bool
  | .element name _ _ => name == "line"
  | .text _ => false

def slotName (attributes : List (String × String)) : String :=
  (attributes.lookup "name").getD ""

mutual
def said : Node → Sketch
  | .text _ => .node none (fun _ => []) []
  | .element _ attributes children =>
    .node ((captionOfElement attributes).toOption.map Caption.face) (fun name => saidIn name children)
      (Sketch.elseLast (saidInChain children))
def saidIn (name : String) : List Node → List (Entry Sketch)
  | [] => []
  | .text _ :: nodes => saidIn name nodes
  | .element tag attributes children :: nodes =>
    if tag == "slot" && slotName attributes == name then saidEntries children ++ saidIn name nodes
    else saidIn name nodes
def saidEntries : List Node → List (Entry Sketch)
  | [] => []
  | n :: nodes =>
    if isBlockElement n then .block (said n) :: saidEntries nodes
    else if isLineElement n then .line (Xml.textOf n.children) :: saidEntries nodes
    else saidEntries nodes
def saidInChain : List Node → List Sketch
  | [] => []
  | .text _ :: nodes => saidInChain nodes
  | .element tag _ children :: nodes =>
    if tag == "chain" then saidBlocks children ++ saidInChain nodes else saidInChain nodes
def saidBlocks : List Node → List Sketch
  | [] => []
  | n :: nodes => if isBlockElement n then said n :: saidBlocks nodes else saidBlocks nodes
end

/-! ### When it is kept -/

def isValueElement : Node → Bool
  | .element tag attributes children => tag == "slot" && !isBody attributes children
  | .text _ => false

def givenBlocks (nodes : List Node) : List String :=
  (nodes.filter fun n => isValueElement n && n.children.any isBlockElement).map fun
    | .element _ attributes _ => slotName attributes
    | .text _ => ""

mutual
/-- No line stands in a slot that is read as a value, and no value slot is given two blocks, in the block
and in those below. -/
def clear : Node → Bool
  | .text _ => true
  | .element _ _ children => decide (givenBlocks children).Nodup && clearParts children
def clearParts : List Node → Bool
  | [] => true
  | .text _ :: nodes => clearParts nodes
  | .element tag attributes children :: nodes =>
    !(isValueElement (.element tag attributes children) && children.any isLineElement) &&
      clearBlocks children && clearParts nodes
def clearBlocks : List Node → Bool
  | [] => true
  | n :: nodes => (!isBlockElement n || clear n) && clearBlocks nodes
end

/-! ### Reading a clear workspace -/

def ReadsAsSaid (n : Node) : Prop :=
  ∀ o, outlineOfElement n = .ok o → clear n = true → o.Single ∧ o.sketch = said n

variable {nodes : List Node}

theorem clear_of_mem {n : Node} (h : clearBlocks (n :: nodes) = true) :
    (isBlockElement n = true → clear n = true) ∧ clearBlocks nodes = true := by
  simp only [clearBlocks, Bool.and_eq_true, Bool.or_eq_true, Bool.not_eq_true'] at h
  refine ⟨fun hb => h.1.resolve_left fun hn => ?_, h.2⟩
  cases hn.symm.trans hb

theorem blockElementsOf_cons (n : Node) (nodes : List Node) :
    blockElementsOf (n :: nodes) =
      if isBlockElement n then do return (← outlineOfElement n) :: (← blockElementsOf nodes)
      else blockElementsOf nodes := by
  cases n <;> rfl

theorem firstBlockOf_cons (n : Node) (nodes : List Node) :
    firstBlockOf (n :: nodes) =
      if isBlockElement n then do return some (← outlineOfElement n) else firstBlockOf nodes := by
  cases n <;> rfl

theorem linesOf_cons (slotName : String) (n : Node) (nodes : List Node) :
    linesOf slotName (n :: nodes) =
      if isBlockElement n then do
        return .block (← outlineOfElement n) :: (← linesOf slotName nodes)
      else if isLineElement n then do
        return .line (Xml.textOf n.children) :: (← linesOf slotName nodes)
      else match n with
        | .text _ => linesOf slotName nodes
        | .element name _ _ => .error (.unexpectedInBody name slotName) := by
  cases n <;> rfl

theorem reads_blockElementsOf (ih : ∀ n ∈ nodes, ReadsAsSaid n) (hclear : clearBlocks nodes = true)
    {os : List Outline} (h : blockElementsOf nodes = .ok os) :
    (∀ o ∈ os, o.Single) ∧ os.map Outline.sketch = saidBlocks nodes := by
  induction nodes generalizing os with
  | nil =>
    obtain rfl := Except.ok.inj h
    exact ⟨by simp, rfl⟩
  | cons n nodes ihn =>
    obtain ⟨hn, hrest⟩ := clear_of_mem hclear
    have ih' : ∀ n ∈ nodes, ReadsAsSaid n := fun n hm => ih n (List.mem_cons_of_mem _ hm)
    rw [blockElementsOf_cons] at h
    rw [saidBlocks]
    split at h
    · next hblock =>
      obtain ⟨o, ho, h⟩ := bind_eq_ok h
      obtain ⟨os', hos, h⟩ := bind_eq_ok h
      obtain rfl := Except.ok.inj h
      obtain ⟨hsingle, hsketch⟩ := ih n List.mem_cons_self o ho (hn hblock)
      obtain ⟨hsingles, hsketches⟩ := ihn ih' hrest hos
      refine ⟨List.forall_mem_cons.2 ⟨hsingle, hsingles⟩, ?_⟩
      rw [List.map_cons, hsketch, hsketches, if_pos hblock]
    · next hblock =>
      rw [if_neg hblock]
      exact ihn ih' hrest h

theorem reads_linesOf (ih : ∀ n ∈ nodes, ReadsAsSaid n) (hclear : clearBlocks nodes = true) {name : String}
    {entries : List (Entry Outline)} (h : linesOf name nodes = .ok entries) :
    (∀ o ∈ (Content.body entries).children, o.Single) ∧
      entries.map (Entry.map Outline.sketch) = saidEntries nodes := by
  induction nodes generalizing entries with
  | nil =>
    obtain rfl := Except.ok.inj h
    exact ⟨by simp [Content.children], rfl⟩
  | cons n nodes ihn =>
    obtain ⟨hn, hrest⟩ := clear_of_mem hclear
    have ih' : ∀ n ∈ nodes, ReadsAsSaid n := fun n hm => ih n (List.mem_cons_of_mem _ hm)
    rw [linesOf_cons] at h
    rw [saidEntries]
    split at h
    · next hblock =>
      obtain ⟨o, ho, h⟩ := bind_eq_ok h
      obtain ⟨es, hes, h⟩ := bind_eq_ok h
      obtain rfl := Except.ok.inj h
      obtain ⟨hsingle, hsketch⟩ := ih n List.mem_cons_self o ho (hn hblock)
      obtain ⟨hsingles, hsketches⟩ := ihn ih' hrest hes
      refine ⟨List.forall_mem_cons.2 ⟨hsingle, hsingles⟩, ?_⟩
      rw [List.map_cons, Entry.map, hsketch, hsketches, if_pos hblock]
    · next hblock =>
      rw [if_neg hblock]
      split at h
      · next hline =>
        obtain ⟨es, hes, h⟩ := bind_eq_ok h
        obtain rfl := Except.ok.inj h
        obtain ⟨hsingles, hsketches⟩ := ihn ih' hrest hes
        refine ⟨hsingles, ?_⟩
        rw [List.map_cons, Entry.map, hsketches, if_pos hline]
      · next hline =>
        rw [if_neg hline]
        cases n with
        | text s => exact ihn ih' hrest h
        | element tag attributes children => cases h

theorem saidEntries_eq_nil (hblocks : nodes.any isBlockElement = false)
    (hlines : nodes.any isLineElement = false) : saidEntries nodes = [] := by
  induction nodes with
  | nil => rfl
  | cons n nodes ih =>
    simp only [List.any_cons, Bool.or_eq_false_iff] at hblocks hlines
    rw [saidEntries, if_neg (by simp [hblocks.1]), if_neg (by simp [hlines.1]), ih hblocks.2 hlines.2]

theorem reads_firstBlockOf (ih : ∀ n ∈ nodes, ReadsAsSaid n) (hclear : clearBlocks nodes = true)
    (hlines : nodes.any isLineElement = false) (hone : (nodes.filter isBlockElement).length ≤ 1)
    {child : Option Outline} (h : firstBlockOf nodes = .ok child) :
    (∀ o ∈ child, o.Single) ∧ child.isSome = nodes.any isBlockElement ∧
      (child.map fun o => Entry.block o.sketch).toList = saidEntries nodes := by
  induction nodes with
  | nil =>
    obtain rfl := Except.ok.inj h
    exact ⟨nofun, rfl, rfl⟩
  | cons n nodes ihn =>
    obtain ⟨hn, hrest⟩ := clear_of_mem hclear
    simp only [List.any_cons, Bool.or_eq_false_iff] at hlines
    rw [firstBlockOf_cons] at h
    rw [saidEntries, List.any_cons]
    split at h
    · next hblock =>
      obtain ⟨o, ho, h⟩ := bind_eq_ok h
      obtain rfl := Except.ok.inj h
      obtain ⟨hsingle, hsketch⟩ := ih n List.mem_cons_self o ho (hn hblock)
      rw [List.filter_cons_of_pos hblock, List.length_cons] at hone
      -- one block at most, so the nodes that are not looked at say nothing
      have hnone : nodes.any isBlockElement = false := by
        have hfilter := List.eq_nil_of_length_eq_zero (Nat.le_zero.1 (Nat.le_of_succ_le_succ hone))
        simpa using List.filter_eq_nil_iff.1 hfilter
      refine ⟨?_, by rw [hblock]; rfl, ?_⟩
      · rintro o' ⟨⟩
        exact hsingle
      · rw [if_pos hblock, saidEntries_eq_nil hnone hlines.2, ← hsketch]
        rfl
    · next hblock =>
      rw [List.filter_cons_of_neg hblock] at hone
      rw [if_neg hblock, if_neg (by simp [hlines.1]), Bool.eq_false_iff.2 hblock, Bool.false_or]
      exact ihn (fun n hm => ih n (List.mem_cons_of_mem _ hm)) hrest hlines.2 hone h

def contentOfElement (slotName : String) (attributes : List (String × String))
    (children : List Node) : Except DocumentError (Content Outline) :=
  if isBody attributes children then do return .body (← linesOf slotName children)
  else do return .value (← firstBlockOf children) (Text.trimmed (Xml.textOf children))

theorem partsOf_slot (kind : Kind) {name : String} {attributes : List (String × String)}
    (hname : attributes.lookup "name" = some name) (children nodes : List Node) :
    partsOf kind (.element "slot" attributes children :: nodes) = do
      let content ← contentOfElement name attributes children
      let (slots, chain) ← partsOf kind nodes
      return (⟨name, content⟩ :: slots, chain) := by
  simp only [partsOf, hname, contentOfElement, beq_self_eq_true, if_true, bind, Except.bind]
  split
  · cases linesOf name children <;> rfl
  · cases firstBlockOf children <;> rfl

theorem partsOf_nameless (kind : Kind) {attributes : List (String × String)}
    (hname : attributes.lookup "name" = none) (children nodes : List Node) :
    partsOf kind (.element "slot" attributes children :: nodes) = .error (.namelessSlot kind) := by
  simp only [partsOf, hname, beq_self_eq_true, if_true]
  rfl

theorem partsOf_chain (kind : Kind) (attributes : List (String × String)) (children nodes : List Node) :
    partsOf kind (.element "chain" attributes children :: nodes) = do
      let connectors ← blockElementsOf children
      let (slots, chain) ← partsOf kind nodes
      return (slots, connectors ++ chain) := rfl

theorem partsOf_other (kind : Kind) {tag : String} (hslot : tag ≠ "slot") (hchain : tag ≠ "chain")
    (attributes : List (String × String)) (children nodes : List Node) :
    partsOf kind (.element tag attributes children :: nodes) = .error (.unexpectedInBlock tag kind) := by
  simp only [partsOf, beq_iff_eq, if_neg hslot, if_neg hchain]

structure ReadsParts (nodes : List Node) (slots : List (Slot Outline)) (chain : List Outline) :
    Prop where
  slotBlocks : ∀ g ∈ slots, ∀ o ∈ g.children, o.Single
  chainBlocks : ∀ o ∈ chain, o.Single
  singles : Outline.singles slots = givenBlocks nodes
  held : ∀ name, (Slot.heldBy slots name).map (Entry.map Outline.sketch) = saidIn name nodes
  connectors : chain.map Outline.sketch = saidInChain nodes

theorem reads_contentOfElement {attributes : List (String × String)} (ih : ∀ n ∈ nodes, ReadsAsSaid n)
    (hclear : clearBlocks nodes = true)
    (hlines : isBody attributes nodes = false → nodes.any isLineElement = false) {name : String}
    {content : Content Outline} (h : contentOfElement name attributes nodes = .ok content) :
    (∀ o ∈ content.children, o.Single) ∧
      content.held.map (Entry.map Outline.sketch) = saidEntries nodes ∧
      (content.shape == .value && !content.held.isEmpty) =
        (!isBody attributes nodes && nodes.any isBlockElement) := by
  rw [contentOfElement] at h
  split at h
  · next hbody =>
    obtain ⟨entries, hentries, h⟩ := bind_eq_ok h
    obtain rfl := Except.ok.inj h
    obtain ⟨hsingles, hsketches⟩ := reads_linesOf ih hclear hentries
    exact ⟨hsingles, hsketches, by simp [hbody, Content.shape]⟩
  · next hbody =>
    have hbody' := Bool.eq_false_iff.2 hbody
    obtain ⟨child, hchild, h⟩ := bind_eq_ok h
    obtain rfl := Except.ok.inj h
    have hone : (nodes.filter isBlockElement).length ≤ 1 := by
      simp only [isBody, Bool.or_eq_false_iff, decide_eq_false_iff_not] at hbody'
      exact Nat.le_of_not_lt hbody'.2
    obtain ⟨hsingles, hsome, hsketches⟩ := reads_firstBlockOf ih hclear (hlines hbody') hone hchild
    refine ⟨fun o ho => hsingles o (by simpa [Content.children] using ho), ?_, ?_⟩
    · rw [← hsketches]
      cases child <;> rfl
    · rw [hbody', ← hsome]
      cases child <;> rfl

theorem reads_partsOf (ih : ∀ part ∈ nodes, ∀ n ∈ part.children, ReadsAsSaid n)
    (hclear : clearParts nodes = true) {kind : Kind} {slots : List (Slot Outline)}
    {chain : List Outline} (h : partsOf kind nodes = .ok (slots, chain)) :
    ReadsParts nodes slots chain := by
  induction nodes generalizing slots chain with
  | nil =>
    obtain ⟨rfl, rfl⟩ := Prod.mk.inj (Except.ok.inj h)
    exact ⟨by simp, by simp, rfl, fun _ => rfl, rfl⟩
  | cons part nodes ihn =>
    have ih' : ∀ part ∈ nodes, ∀ n ∈ part.children, ReadsAsSaid n :=
      fun part hm => ih part (List.mem_cons_of_mem _ hm)
    cases part with
    | text s =>
      obtain ⟨hslots, hchain, hsingles, hheld, hconnectors⟩ := ihn ih' hclear h
      exact ⟨hslots, hchain, hsingles, hheld, hconnectors⟩
    | element tag attributes children =>
      replace ih : ∀ n ∈ children, ReadsAsSaid n := ih _ List.mem_cons_self
      simp only [clearParts, Bool.and_eq_true] at hclear
      obtain ⟨⟨hlines, hblocks⟩, hrest⟩ := hclear
      by_cases hslot : tag = "slot"
      · subst hslot
        cases hname : attributes.lookup "name" with
        | none =>
          rw [partsOf_nameless kind hname] at h
          cases h
        | some name =>
          rw [partsOf_slot kind hname] at h
          obtain ⟨content, hcontent, h⟩ := bind_eq_ok h
          obtain ⟨⟨slots', chain'⟩, hparts, h⟩ := bind_eq_ok h
          obtain ⟨rfl, rfl⟩ := Prod.mk.inj (Except.ok.inj h)
          obtain ⟨hslots, hchain, hsingles, hheld, hconnectors⟩ := ihn ih' hrest hparts
          obtain ⟨hown, hsaid, hsingle⟩ := reads_contentOfElement ih hblocks
            (fun hbody => by simpa [isValueElement, hbody] using hlines) hcontent
          have hslotName : slotName attributes = name := by rw [slotName, hname]; rfl
          refine ⟨List.forall_mem_cons.2 ⟨hown, hslots⟩, hchain, ?_, fun label => ?_, hconnectors⟩
          · -- the name asks for a block just if the element is read as a value with a block in it
            have hgiven : givenBlocks [.element "slot" attributes children] =
                Outline.singles [⟨name, content⟩] := by
              simp only [givenBlocks, Outline.singles, List.filter_cons, List.filter_nil, isValueElement,
                Node.children, Slot.shape, hsingle, beq_self_eq_true, Bool.true_and]
              split <;> simp [hslotName]
            rw [Outline.singles_cons, hsingles, ← hgiven, givenBlocks, givenBlocks, ← List.map_append,
              ← List.filter_append]
            rfl
          · rw [Slot.heldBy_cons, List.map_append, hheld, saidIn]
            by_cases hl : name = label
            · simp [hl, hslotName, hsaid]
            · simp [hl, hslotName]
      · by_cases hchain : tag = "chain"
        · subst hchain
          rw [partsOf_chain] at h
          obtain ⟨os, hos, h⟩ := bind_eq_ok h
          obtain ⟨⟨slots', chain'⟩, hparts, h⟩ := bind_eq_ok h
          obtain ⟨rfl, rfl⟩ := Prod.mk.inj (Except.ok.inj h)
          obtain ⟨hslots, hchain, hsingles, hheld, hconnectors⟩ := ihn ih' hrest hparts
          obtain ⟨hown, hsaid⟩ := reads_blockElementsOf ih hblocks hos
          refine ⟨hslots, ?_, hsingles, hheld, ?_⟩
          · exact fun o ho => (List.mem_append.1 ho).elim (hown o) (hchain o)
          · rw [List.map_append, hsaid, hconnectors]
            rfl
        · rw [partsOf_other kind hslot hchain] at h
          cases h

theorem reads (n : Node) : ReadsAsSaid n := by
  induction hn : sizeOf n using Nat.strongRecOn generalizing n with
  | ind size ih =>
    intro o ho hclear
    cases n with
    | text s => cases ho
    | element tag attributes children =>
      simp only [outlineOfElement] at ho
      obtain ⟨given, hgiven, ho⟩ := bind_eq_ok ho
      obtain ⟨⟨slots, chain⟩, hparts, ho⟩ := bind_eq_ok ho
      obtain rfl := Except.ok.inj ho
      simp only [clear, Bool.and_eq_true, decide_eq_true_iff] at hclear
      have hr := reads_partsOf (fun part hpart n hm => ih (sizeOf n) (by
        have hpart' := Node.sizeOf_lt_of_mem_children (n := .element tag attributes children) hpart
        have hm' := Node.sizeOf_lt_of_mem_children hm
        omega) n rfl) hclear.2 hparts
      refine ⟨.node (hr.singles ▸ hclear.1) hr.slotBlocks hr.chainBlocks, ?_⟩
      rw [Outline.sketch_node, said, hgiven, hr.connectors]
      simp only [hr.held]
      rfl

theorem reads_ofXml {root : Node} {d : Document} (h : ofXml root = .ok d)
    (hclear : clearBlocks root.children = true) :
    (∀ o ∈ d.blocks, o.Single) ∧ d.blocks.map Outline.sketch = saidBlocks root.children := by
  cases root with
  | text s => cases h
  | element name attributes children =>
    simp only [ofXml] at h
    split at h
    · cases h
    · obtain ⟨width, -, h⟩ := bind_eq_ok h
      obtain ⟨height, -, h⟩ := bind_eq_ok h
      obtain ⟨blocks, hblocks, h⟩ := bind_eq_ok h
      obtain rfl := Except.ok.inj h
      exact reads_blockElementsOf (fun n _ => reads n) hclear hblocks

end Document

namespace Canvas

def sketches (c : Canvas) : List Sketch :=
  c.forest.map fun r => r.tree.sketch

theorem ofXml_keeps {root : Xml.Node} {c : Canvas} (h : ofXml root = .ok c)
    (hclear : Document.clearBlocks root.children = true) :
    c.sketches = Document.saidBlocks root.children := by
  obtain ⟨d, hd, hbuild⟩ := Document.bind_eq_ok h
  obtain ⟨hsingle, hsketches⟩ := Document.reads_ofXml hd hclear
  rw [sketches, Document.sketch_build hsingle hbuild, hsketches]

theorem ofXmlBytes_eq_ok {xml : Xml.Codec} {bytes : List UInt8} {c : Canvas}
    (h : ofXmlBytes xml bytes = .ok c) : ∃ root, xml.read bytes = some root ∧ ofXml root = .ok c := by
  rw [ofXmlBytes] at h
  cases hparse : xml.read bytes with
  | none => simp [hparse] at h
  | some root => exact ⟨root, rfl, by rwa [hparse] at h⟩

/-- A clear workspace that is accepted is kept, whatever package read it: the canvas holds just what the
elements say, and each of its blocks stands in one place. -/
theorem ofXmlBytes_keeps {xml : Xml.Codec} {bytes : List UInt8} {c : Canvas}
    (h : ofXmlBytes xml bytes = .ok c) :
    ∃ root, xml.read bytes = some root ∧
      (Document.clearBlocks root.children = true → c.sketches = Document.saidBlocks root.children) ∧
      c.Reachable ∧ c.traverse.Nodup ∧ ∀ x, x ∈ c.traverse ↔ ∃ b ∈ c.blocks, b.id = x := by
  obtain ⟨root, hroot, h⟩ := ofXmlBytes_eq_ok h
  obtain ⟨d, hd, hbuild⟩ := Document.bind_eq_ok h
  have hc := Document.reachable_build hbuild
  have hs := hc.sound.toLinked
  exact ⟨root, hroot, ofXml_keeps h, hc, nodup_traverse hs, fun x => mem_traverse_iff hs⟩

theorem exists_ofXmlBytes {s : String}
    (hs : ∃ c cs, s.toList = '<' :: c :: cs ∧ Xml.isNameChar c = true) {p : Xml.Node → Canvas → Bool}
    (h : ((Xml.readDocument false s.toList).any fun root => (ofXml root).toOption.any (p root)) = true) :
    ∃ root c, Library.standard.xml.read (Text.utf8 s) = some root ∧
      ofXmlBytes Library.standard.xml (Text.utf8 s) = .ok c ∧ p root c = true := by
  have hread : Library.standard.xml.read (Text.utf8 s) = Xml.readDocument false s.toList :=
    Xml.parse?_utf8_undeclared hs
  rw [ofXmlBytes, hread]
  cases hroot : Xml.readDocument false s.toList with
  | none => simp [hroot] at h
  | some root =>
    cases hload : ofXml root with
    | error e => simp [hroot, hload, Except.toOption] at h
    | ok c => exact ⟨root, c, rfl, hload, by simpa [hroot, hload, Except.toOption] using h⟩

theorem ofXmlBytes_keeps_branching :
    let bytes := Text.utf8 ("<canvas><block kind=\"for\"><slot name=\"body\" shape=\"statement\">" ++
      "<line>a</line></slot><slot name=\"body\" shape=\"statement\"><block kind=\"if\"><chain>" ++
      "<block kind=\"else\"/><block kind=\"elif\"/></chain></block><line>b</line></slot></block></canvas>")
    let xml := Library.standard.xml
    ∃ root c, xml.read bytes = some root ∧ ofXmlBytes xml bytes = .ok c ∧ c.blocks.length = 4 ∧
      c.sketches = Document.saidBlocks root.children := by
  intro bytes xml
  have hread : ∃ root c, xml.read bytes = some root ∧ ofXmlBytes xml bytes = .ok c ∧
      (c.blocks.length == 4 && Document.clearBlocks root.children) = true := by
    refine exists_ofXmlBytes ?_ ?_ <;> simp only [String.toList_append, String.reduceToList]
    · exact ⟨_, _, rfl, rfl⟩
    · decide +kernel
  obtain ⟨root, c, hroot, hc, hread⟩ := hread
  obtain ⟨root', hroot', hkeeps, -⟩ := ofXmlBytes_keeps hc
  obtain rfl := Option.some.inj (hroot'.symm.trans hroot)
  rw [Bool.and_eq_true, beq_iff_eq] at hread
  exact ⟨root', c, hroot', hc, hread.1, hkeeps hread.2⟩

/-- A line in a slot that is read as a value is dropped; of two blocks that are given to a value slot,
the first is moved to the canvas. -/
theorem ofXmlBytes_loses :
    let lined := Text.utf8
      "<canvas><block kind=\"while\"><slot name=\"body\"><line>x</line></slot></block></canvas>"
    let crowded := Text.utf8 ("<canvas><block kind=\"print\"><slot name=\"value\">" ++
      "<block kind=\"operator\"/></slot><slot name=\"value\"><block kind=\"variable\"/></slot></block></canvas>")
    let xml := Library.standard.xml
    (∃ root c, xml.read lined = some root ∧ ofXmlBytes xml lined = .ok c ∧
      (Document.saidBlocks root.children).map (fun k => (k.slots "body").length) = [1] ∧
      c.sketches.map (fun k => (k.slots "body").length) = [0]) ∧
    ∃ root c, xml.read crowded = some root ∧ ofXmlBytes xml crowded = .ok c ∧
      (Document.saidBlocks root.children).length = 1 ∧ c.sketches.length = 2 := by
  intro lined crowded xml
  constructor
  · have hread : ∃ root c, xml.read lined = some root ∧ ofXmlBytes xml lined = .ok c ∧
        ((Document.saidBlocks root.children).map (fun k => (k.slots "body").length) == [1] &&
          c.sketches.map (fun k => (k.slots "body").length) == [0]) = true := by
      refine exists_ofXmlBytes ?_ ?_ <;> simp only [String.reduceToList]
      · exact ⟨_, _, rfl, rfl⟩
      · decide +kernel
    simpa only [Bool.and_eq_true, beq_iff_eq] using hread
  · have hread : ∃ root c, xml.read crowded = some root ∧ ofXmlBytes xml crowded = .ok c ∧
        ((Document.saidBlocks root.children).length == 1 && c.sketches.length == 2) = true := by
      refine exists_ofXmlBytes ?_ ?_ <;> simp only [String.toList_append, String.reduceToList]
      · exact ⟨_, _, rfl, rfl⟩
      · decide +kernel
    simpa only [Bool.and_eq_true, beq_iff_eq] using hread

end Canvas
end BlockCanvas
