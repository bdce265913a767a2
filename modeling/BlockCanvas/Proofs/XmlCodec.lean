import BlockCanvas.Document.ToXml
import BlockCanvas.Proofs.Conservation
import BlockCanvas.Proofs.ProgramRecast
import BlockCanvas.Proofs.Workspaces
import BlockCanvas.Proofs.XmlReading

/-!
Reading back what was written as an XML workspace. White space around literals is lost, and blank lines
are; what is left of a tree reads as the outline of the tree. So a canvas comes back as the forest that
is planted from these outlines, and says the same program.
-/
namespace BlockCanvas

/-! ### Numbers -/

namespace Decimal

def isNumeral (c : Char) : Bool :=
  c.isDigit || ['-', '.', 'N', 'a', 'i', 'n', 'f'].contains c

variable {c : Char}

theorem digit_or_mem_of_isNumeral (h : isNumeral c = true) :
    (48 ≤ c.toNat ∧ c.toNat ≤ 57) ∨ c ∈ ['-', '.', 'N', 'a', 'i', 'n', 'f'] := by
  rw [isNumeral, Bool.or_eq_true] at h
  exact h.imp Char.isDigit_iff_toNat.1 List.contains_iff_mem.1

theorem isBlank_of_isNumeral (h : isNumeral c = true) : Text.isBlank c = false := by
  rcases digit_or_mem_of_isNumeral h with hdigit | hmem
  · simp [Text.isBlank]
    omega
  · have hnone : ∀ d ∈ ['-', '.', 'N', 'a', 'i', 'n', 'f'], ¬Text.isBlank d = true :=
      List.any_eq_false.1 rfl
    exact eq_false_of_ne_true (hnone c hmem)

theorem isChar_of_isNumeral (h : isNumeral c = true) : Xml.isChar false c = true := by
  rcases digit_or_mem_of_isNumeral h with hdigit | hmem
  · simp [Xml.isChar]
    omega
  · have hall : ∀ d ∈ ['-', '.', 'N', 'a', 'i', 'n', 'f'], Xml.isChar false d = true :=
      List.all_eq_true.1 rfl
    exact hall c hmem

theorem isNumeral_of_mem_positional {d : Decimal} (h : c ∈ d.positional) : isNumeral c = true := by
  have hdigits : ∀ c ∈ d.digits, isNumeral c = true := fun c hc => by
    simp [isNumeral, Nat.isDigit_of_mem_toDigits (by decide) (by decide) hc]
  have hzeros : ∀ n, ∀ c ∈ zeros n, isNumeral c = true := fun n c hc => by
    obtain rfl := (List.mem_replicate.1 hc).2
    rfl
  rw [positional] at h
  split at h
  · exact (List.mem_append.1 h).elim (hdigits c) (hzeros _ c)
  · split at h
    · rcases List.mem_append.1 h with h | h
      · exact hdigits c (List.mem_of_mem_take h)
      · rcases List.mem_cons.1 h with rfl | h
        · rfl
        · exact hdigits c (List.mem_of_mem_drop h)
    · rcases List.mem_cons.1 h with rfl | h
      · rfl
      · rcases List.mem_cons.1 h with rfl | h
        · rfl
        · exact (List.mem_append.1 h).elim (hzeros _ c) (hdigits c)

theorem isNumeral_of_mem_floatText {x : Float} (h : c ∈ (floatText x).toList) : isNumeral c = true := by
  have hsign : ∀ negative, ∀ c ∈ Binary.sign negative, isNumeral c = true
    | false => List.all_eq_true.1 rfl
    | true => List.all_eq_true.1 rfl
  have hword : ∀ c ∈ ['i', 'n', 'f'], isNumeral c = true := List.all_eq_true.1 rfl
  rw [floatText] at h
  cases hx : Binary.ofFloat x with
  | nan =>
    have hnan : ∀ c ∈ "NaN".toList, isNumeral c = true := List.all_eq_true.1 rfl
    rw [hx] at h
    exact hnan c h
  | infinite negative =>
    rw [hx, Binary.positional, String.toList_ofList] at h
    exact (List.mem_append.1 h).elim (hsign _ c) (hword c)
  | finite negative m q =>
    rw [hx, Binary.positional, String.toList_ofList] at h
    refine (List.mem_append.1 h).elim (hsign _ c) fun h => ?_
    split at h
    · obtain rfl := List.mem_singleton.1 h
      rfl
    · exact isNumeral_of_mem_positional h

theorem allowed_floatText (x : Float) : Xml.Allowed (floatText x) :=
  fun _ hc => isChar_of_isNumeral (isNumeral_of_mem_floatText hc)

theorem trimmed_floatText (x : Float) : Text.trimmed (floatText x) = floatText x := by
  have hblank : ∀ c ∈ (floatText x).toList, Text.isBlank c = false := fun c hc =>
    isBlank_of_isNumeral (isNumeral_of_mem_floatText hc)
  rw [Text.trimmed, Text.trim_eq_self hblank, String.ofList_toList]

def Returns (x : Float) : Prop :=
  floatOfText? (floatText x) = some x

instance (x : Float) : Decidable (Returns x) :=
  inferInstanceAs (Decidable (_ = _))

end Decimal

/-! ### Texts -/

def Face.texts (face : Face) : List String :=
  face.name :: face.override.toList

def Slot.texts {β : Type} (s : Slot β) : List String :=
  s.literal?.toList ++ s.lines

def Block.texts (b : Block) : List String :=
  b.toFace.texts ++ b.slots.flatMap Slot.texts

namespace Tree

inductive EveryText (P : String → Prop) : Tree → Prop
  | node {id : BlockId} {face : Face} {slots : List (Slot Tree)} {chain : List Tree}
      (hface : ∀ text ∈ face.texts, P text) (hslots : ∀ s ∈ slots, ∀ text ∈ s.texts, P text)
      (hchildren : ∀ k ∈ slots.flatMap Slot.children ++ chain, EveryText P k) :
      EveryText P (.node id face slots chain)

end Tree

theorem Slot.texts_filterMap {β γ : Type} (f : β → Option γ) (s : Slot β) : (s.filterMap f).texts = s.texts := by
  obtain ⟨name, child | entries⟩ := s
  · rfl
  · simp only [Slot.filterMap, Content.filterMap, Slot.texts, Slot.literal?, Slot.lines, Slot.entries,
      List.filterMap_filterMap]
    refine congrArg _ (List.filterMap_congr fun e _ => ?_)
    cases e with
    | line text => rfl
    | block b => cases hb : f b <;> simp [Entry.filterMap, Entry.line?, hb]

theorem Canvas.everyText_of_grow {c : Canvas} {P : String → Prop} (h : ∀ b ∈ c.blocks, ∀ text ∈ b.texts, P text)
    {n : Nat} {x : BlockId} {t : Tree} (ht : c.grow n x = some t) : t.EveryText P := by
  induction n generalizing x t with
  | zero => cases ht
  | succ n ih =>
    rw [grow] at ht
    obtain ⟨b, hb, rfl⟩ := Option.map_eq_some_iff.1 ht
    have hblock := h b (mem_of_block? hb)
    rw [Block.texts, List.forall_mem_append] at hblock
    refine .node hblock.1 ?_ ?_
    · refine List.forall_mem_map.2 fun s hs text htext => ?_
      rw [Slot.texts_filterMap] at htext
      exact hblock.2 text (List.mem_flatMap.2 ⟨s, hs, htext⟩)
    · intro k hk
      have hgrown : ∃ y, c.grow n y = some k := by
        rcases List.mem_append.1 hk with hk | hk
        · obtain ⟨s, hs, hk⟩ := List.mem_flatMap.1 hk
          obtain ⟨s, hs, rfl⟩ := List.mem_map.1 hs
          rw [Slot.children_filterMap] at hk
          obtain ⟨y, -, hy⟩ := List.mem_filterMap.1 hk
          exact ⟨y, hy⟩
        · obtain ⟨y, -, hy⟩ := List.mem_filterMap.1 hk
          exact ⟨y, hy⟩
      obtain ⟨y, hy⟩ := hgrown
      exact ih hy

/-! ### What is written -/

open Xml (Node)

def Entry.toXml : Entry Node → Node
  | .block n => n
  | .line text => .element "line" [] (Xml.withText text [])

def Slot.toXml (s : Slot Node) : Node :=
  match s.content with
  | .value child literal => .element "slot" [("name", s.name)] (Xml.withText literal child.toList)
  | .body entries =>
    .element "slot" [("name", s.name), ("shape", "statement")] (entries.map Entry.toXml)

def chainXml (chain : List Node) : List Node :=
  if chain.isEmpty then [] else [.element "chain" [] chain]

namespace Tree

theorem textNodes_eq (text : String) : textNodes text = Xml.withText text [] := by
  rw [textNodes, Xml.withText]

theorem withText_append (text : String) (nodes : List Node) :
    Xml.withText text [] ++ nodes = Xml.withText text nodes := by
  rw [Xml.withText, Xml.withText]
  split <;> rfl

theorem toXml_node (position : Option (Point Float)) (id : BlockId) (face : Face)
    (slots : List (Slot Tree)) (chain : List Tree) :
    (node id face slots chain).toXml position =
      .element "block" (blockAttributes face position)
        (slots.map (fun s => (s.map (toXml none)).toXml) ++ chainXml (chain.map (toXml none))) := by
  have hchain : ∀ ts, chainToXml ts = ts.map (toXml none) := by
    intro ts
    induction ts with
    | nil => rfl
    | cons t ts ih => simp [chainToXml, ih]
  have hentries : ∀ entries, entriesToXml entries =
      (entries.map (Entry.map (toXml none))).map Entry.toXml := by
    intro entries
    induction entries with
    | nil => rfl
    | cons e entries ih => cases e <;> simp [entriesToXml, ih, Entry.map, Entry.toXml, textNodes_eq]
  have hslots : slotsToXml slots = slots.map fun s => (s.map (toXml none)).toXml := by
    induction slots with
    | nil => rfl
    | cons s slots ih =>
      obtain ⟨name, content⟩ := s
      cases content with
      | value child literal =>
        cases child <;>
          simp [slotsToXml, ih, Slot.map, Content.map, Slot.toXml, textNodes_eq, withText_append]
      | body entries => simp [slotsToXml, ih, hentries, Slot.map, Content.map, Slot.toXml]
  cases chain with
  | nil =>
    simp only [toXml, hslots]
    rfl
  | cons t ts =>
    simp only [toXml, hslots, hchain]
    rfl

/-! ### It can be read -/

theorem forall_mem_attribute? {key : String} {value : Option String} {Q : String × String → Prop} :
    (∀ a ∈ attribute? key value, Q a) ↔ ∀ text ∈ value, Q (key, text) := by
  cases value <;> simp [attribute?]

theorem isTag_blockAttributes {face : Face} (h : ∀ text ∈ face.texts, Xml.Allowed text)
    (position : Option (Point Float)) : Xml.IsTag "block" (blockAttributes face position) := by
  have hkeys : ((blockAttributes face position).map Prod.fst).Sublist
      ["kind", "literal", "name", "operator", "x", "y"] := by
    obtain ⟨kind, name, operator, override⟩ := face
    rw [blockAttributes]
    split <;> cases override <;> cases operator <;> cases position <;>
      simp only [attribute?, Option.map_none, Option.map_some, List.map_cons, List.map_nil,
        List.append_nil, List.nil_append, List.cons_append] <;> decide
  have hvalues : ∀ a ∈ blockAttributes face position, Xml.Allowed a.2 := by
    obtain ⟨hname, hoverride⟩ := List.forall_mem_cons.1 h
    simp only [blockAttributes, List.forall_mem_append, forall_mem_attribute?]
    refine ⟨⟨⟨⟨⟨?_, ?_⟩, ?_⟩, ?_⟩, ?_⟩, ?_⟩
    · rw [List.forall_mem_singleton]
      cases face.kind <;> decide
    · exact fun text ht => hoverride text (by simpa using ht)
    · split
      · nofun
      · rw [List.forall_mem_singleton]
        exact hname
    · intro text ht
      obtain ⟨op, -, rfl⟩ := Option.map_eq_some_iff.1 ht
      cases op <;> decide
    · intro text ht
      obtain ⟨p, -, rfl⟩ := Option.map_eq_some_iff.1 ht
      exact Decimal.allowed_floatText p.x
    · intro text ht
      obtain ⟨p, -, rfl⟩ := Option.map_eq_some_iff.1 ht
      exact Decimal.allowed_floatText p.y
  exact .of_keys (by decide) (by decide) hkeys hvalues

theorem written_line {text : String} (h : Xml.Allowed text) :
    Xml.Written (.element "line" [] (Xml.withText text [])) :=
  .element ⟨by decide, nofun, List.nodup_nil, nofun⟩ h nofun

theorem Legal.allowed_name {id : BlockId} {face : Face} {slots : List (Slot Tree)} {chain : List Tree}
    (h : (Tree.node id face slots chain).Legal) : ∀ s ∈ slots, Xml.Allowed s.name := by
  have hpalette : ∀ kind, ∀ signature ∈ (Template.slots (β := Tree) kind).map Slot.signature,
      Xml.Allowed signature.1 := by
    intro kind
    cases kind <;> decide
  cases h with
  | node hsig =>
    exact fun s hs => hpalette face.kind s.signature (hsig ▸ List.mem_map_of_mem hs)

theorem written_slot {s : Slot Node} (hname : Xml.Allowed s.name) (htexts : ∀ text ∈ s.texts, Xml.Allowed text)
    (hchildren : ∀ n ∈ s.children, Xml.Written n) : Xml.Written s.toXml := by
  obtain ⟨name, content⟩ := s
  cases content with
  | value child literal =>
    have htag : Xml.IsTag "slot" [("name", name)] :=
      .of_keys (by decide) (by decide) (.refl ["name"]) (List.forall_mem_singleton.2 hname)
    exact .element htag (htexts literal (List.mem_singleton_self _)) hchildren
  | body entries =>
    have htag : Xml.IsTag "slot" [("name", name), ("shape", "statement")] :=
      .of_keys (by decide) (by decide) (.refl ["name", "shape"])
        (List.forall_mem_cons.2 ⟨hname, by decide⟩)
    refine .of_elements htag (List.forall_mem_map.2 fun e he => ?_)
    cases e with
    | block n => exact hchildren n (List.mem_filterMap.2 ⟨_, he, rfl⟩)
    | line text => exact written_line (htexts text (List.mem_filterMap.2 ⟨_, he, rfl⟩))

theorem written_chain {chain : List Node} (h : ∀ n ∈ chain, Xml.Written n) :
    ∀ n ∈ chainXml chain, Xml.Written n := by
  rw [chainXml]
  split
  · nofun
  · exact List.forall_mem_singleton.2 (.of_elements ⟨by decide, nofun, List.nodup_nil, nofun⟩ h)

theorem texts_map {β γ : Type} (f : β → γ) (s : Slot β) : (s.map f).texts = s.texts := by
  rw [Slot.map_eq_filterMap, Slot.texts_filterMap]

theorem written_parts {id : BlockId} {face : Face} {slots : List (Slot Tree)} {chain : List Tree}
    (hlegal : (Tree.node id face slots chain).Legal)
    (hslots : ∀ s ∈ slots, ∀ text ∈ s.texts, Xml.Allowed text)
    (h : ∀ k ∈ slots.flatMap Slot.children ++ chain, Xml.Written (k.toXml none)) :
    ∀ n ∈ slots.map (fun s => (s.map (toXml none)).toXml) ++ chainXml (chain.map (toXml none)),
      Xml.Written n := by
  rw [List.forall_mem_append] at h
  refine List.forall_mem_append.2 ⟨?_, written_chain (List.forall_mem_map.2 h.2)⟩
  refine List.forall_mem_map.2 fun s hs => written_slot (hlegal.allowed_name s hs) ?_ ?_
  · rw [texts_map]
    exact hslots s hs
  · rw [Slot.children_map]
    exact List.forall_mem_map.2 fun k hk => h.1 k (List.mem_flatMap.2 ⟨s, hs, hk⟩)

theorem written_toXml {t : Tree} (h : t.EveryText Xml.Allowed) (hlegal : t.Legal)
    (position : Option (Point Float)) : Xml.Written (t.toXml position) := by
  induction h generalizing position with
  | @node id face slots chain hface hslots hchildren ih =>
    rw [toXml_node]
    exact .of_elements (isTag_blockAttributes hface position) <|
      written_parts hlegal hslots fun k hk => ih k hk (hlegal.of_mem_children hk) none

end Tree

/-! ### What is read -/

namespace Wording

def shown : Wording :=
  ⟨Xml.unlessBlank, Xml.unlessBlank⟩

def tidied : Wording :=
  ⟨Text.trimmed, Xml.unlessBlank⟩

theorem trim_unlessBlank (raw : String) :
    Text.trim (Xml.unlessBlank raw).toList = Text.trim raw.toList := by
  rw [Xml.unlessBlank]
  split
  · next h =>
    have hblank : ∀ c ∈ raw.toList, Text.isBlank c = true := fun c hc =>
      Text.isBlank_of_isSpacing (List.all_eq_true.1 h c hc)
    rw [Text.trim_eq_nil_iff.2 hblank]
    rfl
  · rfl

theorem faint_tidied : tidied.Faint :=
  ⟨Text.trim_trimmed, trim_unlessBlank⟩

theorem trimmed_unlessBlank (raw : String) : Text.trimmed (Xml.unlessBlank raw) = Text.trimmed raw := by
  rw [Text.trimmed, trim_unlessBlank, Text.trimmed]

end Wording

theorem Slot.map_reword {α β : Type} (f : α → β) (w : Wording) (s : Slot α) :
    (s.reword w).map f = (s.map f).reword w := by
  obtain ⟨name, ⟨child, literal⟩ | entries⟩ := s
  · rfl
  · have hentry : Entry.map f ∘ Entry.reword w = Entry.reword w ∘ Entry.map f := by
      funext e
      cases e <;> rfl
    simp [Slot.map, Slot.reword, Content.map, Content.reword, hentry]

namespace Tree

def listed : Tree → Outline :=
  fold fun _ face slots chain => .node (face.caption .origin) slots chain

theorem listed_node (id : BlockId) (face : Face) (slots : List (Slot Tree)) (chain : List Tree) :
    (node id face slots chain).listed =
      .node (face.caption .origin) (slots.map (Slot.map listed)) (chain.map listed) := by
  rw [listed, fold_node]

theorem listing_listed : Listing listed ids where
  kind t := by
    obtain ⟨id, face, slots, chain⟩ := t
    rw [listed_node]
    rfl
  exists_given id face slots chain _ := by
    refine ⟨slots, .refl slots, listed_node .., ?_⟩
    rw [ids_eq, children, List.flatMap_append]
    rfl

def kept (t : Tree) : Node :=
  (t.toXml none).pruned

def tidied (t : Tree) : Tree :=
  t.reworded (fun id => id) .tidied

def reread (t : Tree) : Outline :=
  t.tidied.listed

theorem reread_node (id : BlockId) (face : Face) (slots : List (Slot Tree)) (chain : List Tree) :
    (node id face slots chain).reread =
      .node (face.caption .origin) (slots.map fun s => (s.map reread).reword .tidied)
        (chain.map reread) := by
  have hslot : ∀ s : Slot Tree, ((s.map (reworded (fun id => id) .tidied)).reword .tidied).map listed =
      (s.map reread).reword .tidied := by
    intro s
    rw [Slot.map_reword, Slot.map_map]
    rfl
  rw [reread, tidied, reworded_node, listed_node, rewordedSlots, List.map_map, List.map_map]
  simp only [Function.comp_def, hslot]
  rfl

end Tree

theorem Slot.pruned_toXml {s : Slot Node} (h : ∀ n ∈ s.children, Xml.Written n) :
    s.toXml.pruned = ((s.map Node.pruned).reword .shown).toXml := by
  obtain ⟨name, ⟨child, literal⟩ | entries⟩ := s
  · have hpruned : Node.prunedAll (Xml.withText literal child.toList) =
        Xml.withText (Xml.unlessBlank literal) (child.toList.map Node.pruned) :=
      Node.prunedAll_withText literal h
    rw [toXml, Node.pruned, hpruned]
    cases child <;> rfl
  · have hentries : Node.prunedAll (entries.map Entry.toXml) =
        ((entries.map (Entry.map Node.pruned)).map (Entry.reword .shown)).map Entry.toXml := by
      induction entries with
      | nil => rfl
      | cons e entries ih =>
        cases e with
        | block n =>
          obtain ⟨hn, h⟩ := List.forall_mem_cons.1 h
          rw [List.map_cons, Entry.toXml, Node.prunedAll_cons hn, ih h]
          rfl
        | line text =>
          have hline : (Node.element "line" [] (Xml.withText text [])).pruned =
              .element "line" [] (Xml.withText (Xml.unlessBlank text) []) :=
            congrArg (Node.element "line" []) (Node.prunedAll_withText text (List.forall_mem_nil _))
          rw [List.map_cons, Entry.toXml, Node.prunedAll, hline, ih h]
          rfl
    rw [toXml, Node.pruned, hentries]
    rfl

theorem map_pruned_chainXml {chain : List Node} (h : ∀ n ∈ chain, Xml.Written n) :
    (chainXml chain).map Node.pruned = chainXml (chain.map Node.pruned) := by
  cases chain with
  | nil => rfl
  | cons n chain => exact congrArg (fun nodes => [Node.element "chain" [] nodes]) (Node.prunedAll_eq h)

namespace Tree

theorem pruned_toXml {id : BlockId} {face : Face} {slots : List (Slot Tree)} {chain : List Tree}
    (hlegal : (Tree.node id face slots chain).Legal)
    (hslots : ∀ s ∈ slots, ∀ text ∈ s.texts, Xml.Allowed text)
    (h : ∀ k ∈ slots.flatMap Slot.children ++ chain, Xml.Written (k.toXml none))
    (position : Option (Point Float)) :
    ((Tree.node id face slots chain).toXml position).pruned =
      .element "block" (blockAttributes face position)
        (slots.map (fun s => ((s.map kept).reword .shown).toXml) ++ chainXml (chain.map kept)) := by
  have hslot : ∀ s ∈ slots, (s.map (toXml none)).toXml.pruned = ((s.map kept).reword .shown).toXml := by
    intro s hs
    have hchildren : ∀ n ∈ (s.map (toXml none)).children, Xml.Written n := by
      rw [Slot.children_map]
      exact List.forall_mem_map.2 fun k hk =>
        h k (List.mem_append_left _ (List.mem_flatMap.2 ⟨s, hs, hk⟩))
    rw [Slot.pruned_toXml hchildren, Slot.map_map]
    rfl
  have hchain : ∀ n ∈ chain.map (toXml none), Xml.Written n :=
    List.forall_mem_map.2 fun k hk => h k (List.mem_append_right _ hk)
  rw [toXml_node, Node.pruned, Node.prunedAll_eq (written_parts hlegal hslots h), List.map_append,
    List.map_map, map_pruned_chainXml hchain, List.map_map, ← List.map_congr_left hslot]
  rfl

end Tree

namespace Document

theorem lookup_attribute? (key k : String) (value : Option String) :
    (Tree.attribute? k value).lookup key = if key = k then value else none := by
  cases value with
  | none => simp [Tree.attribute?]
  | some text =>
    by_cases h : key = k
    · simp [Tree.attribute?, h]
    · simp [Tree.attribute?, h, List.lookup_cons, beq_eq_false_iff_ne.2 h]

theorem numberAt_of_lookup {attributes : List (String × String)} {key : String} {x : Option Float}
    (hlookup : attributes.lookup key = x.map Decimal.floatText) (h : ∀ y ∈ x, Decimal.Returns y) :
    numberAt attributes key = .ok x := by
  rw [numberAt, hlookup]
  cases x with
  | none => rfl
  | some y =>
    have hy : Decimal.floatOfText? (Decimal.floatText y) = some y := h y rfl
    simp only [Option.map_some, Decimal.trimmed_floatText, hy]

theorem captionOfElement_blockAttributes (face : Face) {position : Option (Point Float)}
    (h : ∀ p ∈ position, Decimal.Returns p.x ∧ Decimal.Returns p.y) :
    captionOfElement (Tree.blockAttributes face position) = .ok (face.caption (position.getD .origin)) := by
  obtain ⟨kind, name, operator, override⟩ := face
  let attributes := Tree.blockAttributes ⟨kind, name, operator, override⟩ position
  -- no key stands twice, so each is found in the one place that may write it
  have hlookup : ∀ key, attributes.lookup key =
      (((if key = "kind" then some kind.name else none).or
        (if key = "literal" then override else none)).or
        (if key = "name" then if name.isEmpty then none else some name else none)).or
        ((if key = "operator" then operator.map Operator.name else none).or
        ((if key = "x" then position.map fun p => Decimal.floatText p.x else none).or
        (if key = "y" then position.map fun p => Decimal.floatText p.y else none))) := by
    intro key
    have hkind : [("kind", kind.name)] = Tree.attribute? "kind" (some kind.name) := rfl
    have hname : (if name.isEmpty then [] else [("name", name)]) =
        Tree.attribute? "name" (if name.isEmpty then none else some name) := by
      split <;> rfl
    simp only [attributes, Tree.blockAttributes, List.lookup_append, hkind, hname, lookup_attribute?,
      Option.or_assoc]
  have hkind : attributes.lookup "kind" = some kind.name := by simp [hlookup]
  have hname : attributes.lookup "name" = if name.isEmpty then none else some name := by simp [hlookup]
  have hoperator : attributes.lookup "operator" = operator.map Operator.name := by simp [hlookup]
  have hoverride : attributes.lookup "literal" = override := by simp [hlookup]
  have hx : numberAt attributes "x" = .ok (position.map Point.x) := by
    refine numberAt_of_lookup (by simp [hlookup, Function.comp_def]) fun y hy => ?_
    obtain ⟨p, hp, rfl⟩ := Option.map_eq_some_iff.1 hy
    exact (h p hp).1
  have hy : numberAt attributes "y" = .ok (position.map Point.y) := by
    refine numberAt_of_lookup (by simp [hlookup, Function.comp_def]) fun y hy => ?_
    obtain ⟨p, hp, rfl⟩ := Option.map_eq_some_iff.1 hy
    exact (h p hp).2
  change captionOfElement attributes = _
  simp only [captionOfElement, hkind, hname, hoperator, hoverride, hx, hy, bind, Except.bind, pure,
    Except.pure, Kind.ofText?_name]
  cases operator with
  | none => cases position <;> rfl
  | some op => simp only [Option.map_some, Operator.ofText?_name]; cases position <;> rfl

/-! ### Blocks -/

def Rereads (t : Tree) : Prop :=
  isBlockElement t.kept = true ∧ outlineOfElement t.kept = .ok t.reread

theorem textOf_withText (text : String) (nodes : List Node) (h : ∀ n ∈ nodes, isBlockElement n = true) :
    Xml.textOf (Xml.withText text nodes) = text := by
  have hnone : Xml.textOf nodes = "" := by
    induction nodes with
    | nil => rfl
    | cons n nodes ih =>
      obtain ⟨hn, hrest⟩ := List.forall_mem_cons.1 h
      cases n with
      | text s => cases hn
      | element name attributes children => exact ih hrest
  rw [Xml.withText]
  split
  · next hempty => rw [hnone, String.isEmpty_iff.1 hempty]
  · rw [Xml.textOf, hnone, String.append_empty]

theorem blockElementsOf_kept {ts : List Tree} (h : ∀ t ∈ ts, Rereads t) :
    blockElementsOf (ts.map Tree.kept) = .ok (ts.map Tree.reread) := by
  induction ts with
  | nil => rfl
  | cons t ts ih =>
    obtain ⟨⟨hblock, hread⟩, h⟩ := List.forall_mem_cons.1 h
    rw [List.map_cons, blockElementsOf_cons, if_pos hblock, hread, ih h]
    rfl

theorem linesOf_kept (slotName : String) {entries : List (Entry Tree)}
    (h : ∀ t ∈ entries.filterMap Entry.block?, Rereads t) :
    linesOf slotName (((entries.map (Entry.map Tree.kept)).map (Entry.reword .shown)).map Entry.toXml) =
      .ok ((entries.map (Entry.map Tree.reread)).map (Entry.reword .tidied)) := by
  induction entries with
  | nil => rfl
  | cons e entries ih =>
    cases e with
    | block t =>
      obtain ⟨⟨hblock, hread⟩, h⟩ := List.forall_mem_cons.1 h
      simp only [List.map_cons, Entry.map, Entry.reword, Entry.toXml]
      rw [linesOf_cons, if_pos hblock, hread, ih h]
      rfl
    | line text =>
      have htext := textOf_withText (Xml.unlessBlank text) [] (List.forall_mem_nil _)
      simp only [List.map_cons, Entry.map, Entry.reword, Entry.toXml]
      rw [linesOf_cons, ih h]
      simp [isBlockElement, isLineElement, Xml.Node.children, Wording.shown, Wording.tidied, htext, bind,
        Except.bind, pure, Except.pure]

theorem firstBlockOf_withText (text : String) (nodes : List Node) :
    firstBlockOf (Xml.withText text nodes) = firstBlockOf nodes := by
  rw [Xml.withText]
  split <;> rfl

theorem filter_withText (text : String) (nodes : List Node) :
    (Xml.withText text nodes).filter isBlockElement = nodes.filter isBlockElement := by
  rw [Xml.withText]
  split <;> rfl

theorem contentOf_kept_value (name : String) (child : Option Tree) (literal : String)
    (h : ∀ t ∈ child, Rereads t) :
    contentOfElement name [("name", name)]
        (Xml.withText (Xml.unlessBlank literal) (child.map Tree.kept).toList) =
      .ok (.value (child.map Tree.reread) (Text.trimmed literal)) := by
  have hblocks : ∀ n ∈ (child.map Tree.kept).toList, isBlockElement n = true := by
    intro n hn
    obtain ⟨t, ht, rfl⟩ := Option.map_eq_some_iff.1 (Option.mem_toList.1 hn)
    exact (h t ht).1
  have hbody : isBody [("name", name)] (Xml.withText (Xml.unlessBlank literal)
      (child.map Tree.kept).toList) = false := by
    rw [isBody, filter_withText, List.filter_eq_self.2 hblocks]
    cases child <;> rfl
  have hfirst : firstBlockOf (child.map Tree.kept).toList = .ok (child.map Tree.reread) := by
    cases child with
    | none => rfl
    | some t =>
      obtain ⟨hblock, hread⟩ := h t rfl
      rw [Option.map_some, Option.toList_some, firstBlockOf_cons, if_pos hblock, hread]
      rfl
  rw [contentOfElement, hbody, if_neg Bool.false_ne_true, firstBlockOf_withText, hfirst, textOf_withText _ _ hblocks,
    Wording.trimmed_unlessBlank]
  rfl

theorem partsOf_kept_slot (kind : Kind) {s : Slot Tree} (h : ∀ t ∈ s.children, Rereads t)
    (nodes : List Node) :
    partsOf kind (((s.map Tree.kept).reword .shown).toXml :: nodes) = do
      let (slots, chain) ← partsOf kind nodes
      return ((s.map Tree.reread).reword .tidied :: slots, chain) := by
  obtain ⟨name, ⟨child, literal⟩ | entries⟩ := s
  · have hcontent := contentOf_kept_value name child literal fun t ht =>
      h t (Option.mem_toList.2 ht)
    have hname : [("name", name)].lookup "name" = some name := by simp
    have hslot := partsOf_slot kind hname
      (Xml.withText (Xml.unlessBlank literal) (child.map Tree.kept).toList) nodes
    rw [hcontent] at hslot
    exact hslot
  · have hlines := linesOf_kept name h
    have hname : [("name", name), ("shape", "statement")].lookup "name" = some name := by simp
    have hbody : ∀ children, isBody [("name", name), ("shape", "statement")] children = true := by
      simp [isBody, List.lookup_cons]
    have hslot := partsOf_slot kind hname
      (((entries.map (Entry.map Tree.kept)).map (Entry.reword .shown)).map Entry.toXml) nodes
    rw [contentOfElement, hbody, if_pos rfl, hlines] at hslot
    exact hslot

theorem partsOf_kept (kind : Kind) {slots : List (Slot Tree)} {chain : List Tree}
    (hslots : ∀ t ∈ slots.flatMap Slot.children, Rereads t) (hchain : ∀ t ∈ chain, Rereads t) :
    partsOf kind (slots.map (fun s => ((s.map Tree.kept).reword .shown).toXml) ++
        chainXml (chain.map Tree.kept)) =
      .ok (slots.map fun s => (s.map Tree.reread).reword .tidied, chain.map Tree.reread) := by
  induction slots with
  | nil =>
    cases chain with
    | nil => rfl
    | cons t ts =>
      have hblocks := blockElementsOf_kept hchain
      rw [List.map_cons] at hblocks
      rw [List.map_nil, List.nil_append, List.map_cons, chainXml, List.isEmpty_cons, if_neg nofun,
        partsOf_chain, hblocks]
      simp [partsOf, bind, Except.bind, pure, Except.pure]
  | cons s slots ih =>
    rw [List.flatMap_cons, List.forall_mem_append] at hslots
    rw [List.map_cons, List.cons_append, partsOf_kept_slot kind hslots.1, ih hslots.2]
    rfl

theorem outlineOf_toXml {t : Tree} (h : t.EveryText Xml.Allowed) (hlegal : t.Legal)
    {position : Option (Point Float)}
    (hposition : ∀ p ∈ position, Decimal.Returns p.x ∧ Decimal.Returns p.y) :
    isBlockElement (t.toXml position).pruned = true ∧
      outlineOfElement (t.toXml position).pruned =
        .ok (t.reread.moved (position.getD .origin)) := by
  induction h generalizing position with
  | @node id face slots chain hface hslots hchildren ih =>
    have hwritten : ∀ k ∈ slots.flatMap Slot.children ++ chain, Xml.Written (k.toXml none) := fun k hk =>
      Tree.written_toXml (hchildren k hk) (hlegal.of_mem_children hk) none
    have hbelow : ∀ k ∈ slots.flatMap Slot.children ++ chain, Rereads k := by
      intro k hk
      obtain ⟨hblock, hread⟩ := @ih k hk (hlegal.of_mem_children hk) none nofun
      refine ⟨hblock, hread.trans (congrArg Except.ok ?_)⟩
      obtain ⟨id, face, slots, chain⟩ := k
      rw [Tree.reread_node]
      rfl
    have hcaption := captionOfElement_blockAttributes face hposition
    have hparts := partsOf_kept face.kind (fun k hk => hbelow k (List.mem_append_left _ hk))
      fun k hk => hbelow k (List.mem_append_right _ hk)
    rw [Tree.pruned_toXml hlegal hslots hwritten]
    refine ⟨rfl, ?_⟩
    simp only [outlineOfElement, hcaption, Face.kind_caption, hparts, bind, Except.bind, pure, Except.pure]
    rw [Tree.reread_node]
    rfl

end Document

/-! ### Trees in other words -/

namespace Slot
variable {β : Type}

theorem children_reword (w : Wording) (s : Slot β) : (s.reword w).children = s.children := by
  obtain ⟨name, ⟨child, literal⟩ | entries⟩ := s
  · rfl
  · have hblock : ∀ e : Entry β, (e.reword w).block? = e.block? := by
      intro e
      cases e <;> rfl
    simp [reword, Content.reword, children, Content.children, hblock]

theorem shape_reword (w : Wording) (s : Slot β) : (s.reword w).shape = s.shape := by
  obtain ⟨name, ⟨child, literal⟩ | entries⟩ := s <;> rfl

end Slot

namespace Tree

theorem children_tidied (t : Tree) : t.tidied.children = t.children.map tidied := by
  obtain ⟨id, face, slots, chain⟩ := t
  rw [tidied, reworded_node]
  simp only [children, Tree.slots, Tree.chain, rewordedSlots, List.flatMap_map, Slot.children_reword,
    Slot.children_map, List.map_append, List.map_flatMap]
  rfl

theorem ids_tidied (t : Tree) : t.tidied.ids = t.ids := by
  induction t using Tree.induction with
  | step t ih =>
    have hid : t.tidied.id = t.id := by
      obtain ⟨id, face, slots, chain⟩ := t
      rw [tidied, reworded_node]
      rfl
    rw [ids_eq, ids_eq t, children_tidied, hid, List.flatMap_map, List.flatMap_def, List.flatMap_def,
      List.map_congr_left ih]

theorem Legal.tidied {t : Tree} (h : t.Legal) : t.tidied.Legal := by
  induction t using Tree.induction with
  | step t ih =>
    obtain ⟨id, face, slots, chain⟩ := t
    have hbelow : ∀ k ∈ (Tree.node id face slots chain).children, k.tidied.Legal := fun k hk =>
      ih k hk (h.of_mem_children hk)
    have hkind : ∀ k : Tree, k.tidied.kind = k.kind := kind_reworded _ _
    cases h with
    | node hsig hop hnest hheads hconn hlast _ _ =>
      rw [Tree.tidied, reworded_node]
      refine .node ?_ hop ?_ (fun hne => hheads fun he => hne (by rw [he, List.map_nil])) ?_ ?_ ?_ ?_
      · rw [rewordedSlots, List.map_map, ← hsig]
        exact List.map_congr_left fun s _ => congrArg (Prod.mk s.name)
          ((Slot.shape_reword _ _).trans (Slot.shape_map _ s))
      · refine List.forall_mem_map.2 fun s hs => ?_
        rw [Slot.children_reword, Slot.children_map, Slot.shape_reword, Slot.shape_map]
        refine List.forall_mem_map.2 fun k hk => ?_
        rw [kind_reworded]
        exact hnest s hs k hk
      · refine List.forall_mem_map.2 fun k hk => ?_
        rw [kind_reworded]
        exact hconn k hk
      · refine List.pairwise_map.2 (hlast.imp fun hne => ?_)
        rwa [kind_reworded]
      · refine List.forall_mem_map.2 fun s hs => ?_
        rw [Slot.children_reword, Slot.children_map]
        exact List.forall_mem_map.2 fun k hk => hbelow k (mem_children.2 (Or.inl ⟨s, hs, hk⟩))
      · exact List.forall_mem_map.2 fun k hk => hbelow k (mem_children.2 (Or.inr hk))

theorem recast_tidied (f : BlockId → BlockId) (g : Face → Face) (t : Tree) :
    t.tidied.recast f g = (t.recast f g).tidied := by
  induction t using Tree.induction with
  | step t ih =>
    obtain ⟨id, face, slots, chain⟩ := t
    have hslots : ∀ s ∈ slots, ((s.map tidied).reword .tidied).map (recast f g) =
        ((s.map (recast f g)).map tidied).reword .tidied := by
      intro s hs
      rw [Slot.map_reword, Slot.map_map, Slot.map_map]
      exact congrArg _ (Slot.map_congr fun k hk =>
        ih k (List.mem_append_left _ (List.mem_flatMap.2 ⟨s, hs, hk⟩)))
    have hchain : ∀ k ∈ chain, k.tidied.recast f g = (k.recast f g).tidied :=
      fun k hk => ih k (List.mem_append_right _ hk)
    rw [tidied, reworded_node, recast_node, recast_node, tidied, reworded_node, rewordedSlots,
      rewordedSlots, List.map_map, List.map_map, List.map_map, List.map_map]
    exact congrArg₂ (Tree.node (f id) (g face)) (List.map_congr_left hslots) (List.map_congr_left hchain)

end Tree

def Root.tidied (r : Root) : Root :=
  ⟨r.position, r.tree.tidied⟩

def Root.reread (r : Root) : Outline :=
  r.tidied.listed Tree.listed fun p => p

/-! ### Canvases -/

namespace Canvas
variable {c c' : Canvas}

structure Numbered (c : Canvas) : Prop where
  width : Decimal.Returns c.bounds.width
  height : Decimal.Returns c.bounds.height
  positions : ∀ b ∈ c.blocks, b.owner = .free → Decimal.Returns b.position.x ∧ Decimal.Returns b.position.y

/-- The canvas as a workspace keeps it, under other ids: literals without the white space around them,
no blank lines, a name for each variable, the origin at zero, and no discard zone. -/
structure Reloads (c c' : Canvas) (f : BlockId → BlockId) : Prop where
  bounds : c'.bounds = ⟨0, 0, c.bounds.width, c.bounds.height⟩
  discardZone : c'.discardZone = none
  roots : c'.roots = c.roots.map f
  forest : c'.forest = c.forest.map fun r => ⟨r.position, r.tree.tidied.recast f Face.restored⟩
  traverse : c'.traverse = c.traverse.map f
  injective : ∀ a ∈ c.blocks, ∀ b ∈ c.blocks, f a.id = f b.id → a.id = b.id

def workspace (c : Canvas) : Document :=
  ⟨some ⟨0, 0, c.bounds.width, c.bounds.height⟩, none, c.forest.map Root.reread⟩

theorem everyText_of_mem_forest {P : String → Prop} (h : ∀ b ∈ c.blocks, ∀ text ∈ b.texts, P text)
    {r : Root} (hr : r ∈ c.forest) : r.tree.EveryText P := by
  obtain ⟨x, -, hx⟩ := List.mem_filterMap.1 hr
  obtain ⟨b, -, hb⟩ := Option.bind_eq_some_iff.1 hx
  obtain ⟨t, ht, rfl⟩ := Option.map_eq_some_iff.1 hb
  exact everyText_of_grow h ht

theorem written_roots (h : c.Sound none) (htexts : ∀ b ∈ c.blocks, ∀ text ∈ b.texts, Xml.Allowed text) :
    ∀ n ∈ c.forest.map (fun r => r.tree.toXml (some r.position)), Xml.Written n :=
  List.forall_mem_map.2 fun _ hr =>
    Tree.written_toXml (everyText_of_mem_forest htexts hr) (h.legal_of_mem_forest hr) _

theorem written_toXml (h : c.Sound none) (htexts : ∀ b ∈ c.blocks, ∀ text ∈ b.texts, Xml.Allowed text) :
    Xml.Written c.toXml := by
  have htag : Xml.IsTag "canvas" [("height", Decimal.floatText c.bounds.height),
      ("width", Decimal.floatText c.bounds.width)] :=
    .of_keys (by decide) (by decide) (.refl ["height", "width"])
      (List.forall_mem_cons.2 ⟨Decimal.allowed_floatText _,
        List.forall_mem_singleton.2 (Decimal.allowed_floatText _)⟩)
  exact .of_elements htag (written_roots h htexts)

theorem ofXml_toXml (h : c.Sound none) (htexts : ∀ b ∈ c.blocks, ∀ text ∈ b.texts, Xml.Allowed text)
    (hnumbers : c.Numbered) : Document.ofXml c.toXml.pruned = .ok c.workspace := by
  have hblocks : ∀ roots : List Root, (∀ r ∈ roots, r ∈ c.forest) →
      Document.blockElementsOf (roots.map fun r => (r.tree.toXml (some r.position)).pruned) =
        .ok (roots.map Root.reread) := by
    intro roots hroots
    induction roots with
    | nil => rfl
    | cons r roots ih =>
      obtain ⟨hr, hrest⟩ := List.forall_mem_cons.1 hroots
      obtain ⟨b, hb, hfree, hposition, -⟩ := (mem_forest_iff h.toLinked).1 hr
      have hnumbered : ∀ p ∈ some r.position, Decimal.Returns p.x ∧ Decimal.Returns p.y := by
        rintro p ⟨⟩
        exact hposition ▸ hnumbers.positions b hb hfree
      obtain ⟨hblock, hread⟩ := Document.outlineOf_toXml (everyText_of_mem_forest htexts hr)
        (h.legal_of_mem_forest hr) hnumbered
      rw [List.map_cons, Document.blockElementsOf_cons, if_pos hblock, hread, ih hrest]
      rfl
  have hpruned : c.toXml.pruned = .element "canvas"
      [("height", Decimal.floatText c.bounds.height), ("width", Decimal.floatText c.bounds.width)]
      (c.forest.map fun r => (r.tree.toXml (some r.position)).pruned) := by
    rw [toXml, Node.pruned, Node.prunedAll_eq (written_roots h htexts), List.map_map]
    rfl
  have hwidth : Document.numberAt [("height", Decimal.floatText c.bounds.height),
      ("width", Decimal.floatText c.bounds.width)] "width" = .ok (some c.bounds.width) :=
    Document.numberAt_of_lookup (by simp [List.lookup_cons]) fun y hy => by
      obtain rfl := Option.some.inj hy
      exact hnumbers.width
  have hheight : Document.numberAt [("height", Decimal.floatText c.bounds.height),
      ("width", Decimal.floatText c.bounds.width)] "height" = .ok (some c.bounds.height) :=
    Document.numberAt_of_lookup (by simp) fun y hy => by
      obtain rfl := Option.some.inj hy
      exact hnumbers.height
  rw [hpruned, workspace]
  simp [Document.ofXml, hwidth, hheight, hblocks _ fun _ hr => hr, bind, Except.bind, pure, Except.pure]

theorem Sound.reloads (h : c.Sound none) (h' : c'.Sound none)
    (hbounds : c'.bounds = ⟨0, 0, c.bounds.width, c.bounds.height⟩) (hzone : c'.discardZone = none)
    (hforest : c'.forest = Outline.plantAll 1 c.workspace.blocks) :
    c.Reloads c' fun id => 1 + c.traverse.idxOf id := by
  have hlegal : ∀ r ∈ c.forest.map Root.tidied, r.tree.Legal :=
    List.forall_mem_map.2 fun r hr => (h.legal_of_mem_forest hr).tidied
  have hcounts : Counts (fun id => 1 + c.traverse.idxOf id) 1
      ((c.forest.map Root.tidied).flatMap fun r => r.tree.ids) := by
    have hids : (c.forest.map Root.tidied).flatMap (fun r => r.tree.ids) = c.traverse := by
      rw [← flatMap_ids_forest h.toLinked, List.flatMap_map]
      simp only [Root.tidied, Tree.ids_tidied]
    rw [hids]
    exact counts_idxOf (nodup_traverse h.toLinked) 1
  have hblocks : c.workspace.blocks =
      (c.forest.map Root.tidied).map (Root.listed Tree.listed fun p => p) := by
    rw [List.map_map]
    rfl
  rw [hblocks, Root.plantAll_listed Tree.listing_listed (fun p => p) hlegal hcounts,
    List.map_map] at hforest
  obtain ⟨hroots, htraverse⟩ := map_of_forest (f := fun id => 1 + c.traverse.idxOf id) h.toLinked
    h'.toLinked hforest fun r => by
    simp only [Function.comp_apply, Tree.ids_recast, Root.tidied, Tree.ids_tidied]
  exact ⟨hbounds, hzone, hroots, hforest, htraverse, injective_idxOf h.toLinked (.refl _) 1⟩

theorem Reloads.program {f : BlockId → BlockId} (h : c.Reloads c' f) (o : Python.Options) :
    c'.program o = c.restored.program o := by
  have htrees : c'.forest.map Root.tree =
      (c.forest.map fun r => r.tree.recast f Face.restored).map Tree.tidied := by
    rw [h.forest, List.map_map, List.map_map]
    exact List.map_congr_left fun r _ => Tree.recast_tidied f Face.restored r.tree
  rw [← programOf_restored c f, Canvas.program, htrees]
  exact Python.programOf_reworded Wording.faint_tidied _

/-- A canvas comes back from its workspace, if its free blocks are statements. Only the white space around
typed text, names that are empty and the frame are lost; the program does not show the first, and without
the second it is the same. -/
theorem Reachable.ofXmlBytes_toXmlText {xml : Xml.Codec} (hxml : xml.Lawful) (h : c.Reachable)
    (hfree : ∀ b ∈ c.blocks, b.owner = .free → b.kind.isStatement = true)
    (htexts : ∀ b ∈ c.blocks, ∀ text ∈ b.texts, Xml.Allowed text) (hnumbers : c.Numbered) :
    ∃ c', ofXmlBytes xml (Text.utf8 (c.toXmlText xml)) = .ok c' ∧ c'.Consistent ∧
      (∃ f, c.Reloads c' f) ∧
      ((∀ b ∈ c.blocks, b.kind = .assignment ∨ b.kind = .forLoop → b.name ≠ "") →
        ∀ o, c'.program o = c.program o) := by
  have hs := h.sound
  have hkinds : ∀ o ∈ c.workspace.blocks, o.Legal ∧ o.kind.isStatement = true := by
    refine List.forall_mem_map.2 fun r hr => ⟨?_, ?_⟩
    · exact Root.legal_listed Tree.listing_listed _ (hs.legal_of_mem_forest hr).tidied
    · rw [Root.reread, Root.kind_listed Tree.listing_listed, Root.tidied, Tree.tidied, Tree.kind_reworded]
      exact hs.isStatement_forest_iff.2 hfree r hr
  obtain ⟨c', hbuild, hs', hforest, hbounds, hzone⟩ := Document.exists_build (d := c.workspace)
    (fun o ho => (hkinds o ho).1) fun o ho => (hkinds o ho).2
  have hreloads := hs.reloads hs' hbounds hzone hforest
  refine ⟨c', ?_, consistent_of_sound hs', ⟨_, hreloads⟩, fun hnames o => ?_⟩
  · rw [ofXmlBytes, toXmlText, hxml.reads (written_toXml hs htexts)]
    simp only [ofXml, ofXml_toXml hs htexts hnumbers, bind, Except.bind, hbuild]
  · rw [hreloads.program, restored_eq_self hnames]

theorem ofXmlBytes_toXmlText_printing :
    let edits : List Edit :=
      [.instantiate .ifBranch ⟨10, 2.5⟩, .setLiteral ⟨1, 0⟩ " x < 1 ", .instantiateInto .print ⟨1, 1⟩,
        .setLiteral ⟨2, 0⟩ "\t\"a, b\" , 2 ", .pushLine ⟨1, 1⟩ "  "]
    let c := Edit.run (withBounds ⟨5, 5, 800, 600⟩) edits
    let xml := Library.standard.xml
    c.Reachable ∧ ∃ c', ofXmlBytes xml (Text.utf8 (c.toXmlText xml)) = .ok c' ∧ c'.Consistent ∧
      (∃ f, c.Reloads c' f) ∧ ∀ o, c'.program o = c.program o := by
  intro edits c xml
  have hc : c.Reachable := Reachable.run (.start _) _
  obtain ⟨c', hload, hconsistent, hreloads, hprogram⟩ := Reachable.ofXmlBytes_toXmlText Xml.lawful_standard hc
    (by decide) (by decide) ⟨by decide +kernel, by decide +kernel, by decide +kernel⟩
  exact ⟨hc, c', hload, hconsistent, hreloads, hprogram (by decide)⟩

end Canvas
end BlockCanvas
