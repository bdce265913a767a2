import BlockCanvas.Proofs.Building
import BlockCanvas.Proofs.TreeFold

/-!
What a block holds, as far as a document can say it: which blocks and lines stand in its slots and in
its chain. An outline is filled in part by part and may name a slot several times; if no two of its slots
ask for the same place, what the block holds in the end is what all of them say together
(`Outline.Single.grows`).
-/
namespace BlockCanvas

variable {α β γ : Type}

/-- A block with what is below it. A place that a block does not have holds nothing. -/
inductive Sketch where
  | node (face : Option Face) (slots : String → List (Entry Sketch)) (chain : List Sketch)

namespace Sketch

def face : Sketch → Option Face
  | .node face _ _ => face

def slots : Sketch → String → List (Entry Sketch)
  | .node _ slots _ => slots

def isElse (k : Sketch) : Bool :=
  k.face.any fun face => face.kind == .elseBranch

def elseLast (ks : List Sketch) : List Sketch :=
  ks.filter (fun k => !k.isElse) ++ ks.filter isElse

end Sketch

/-! ### What a slot holds -/

namespace Content

def held : Content β → List (Entry β)
  | .value child _ => (child.map Entry.block).toList
  | .body entries => entries

theorem held_map (f : β → γ) (content : Content β) :
    (content.map f).held = content.held.map (Entry.map f) := by
  cases content with
  | value child literal => cases child <;> rfl
  | body entries => rfl

theorem held_graft {content : Content β} (k : β) (h : content.shape = .value → content.held = []) :
    (content.graft k).held = content.held ++ [.block k] := by
  cases content with
  | value child literal =>
    cases child with
    | none => rfl
    | some k' => cases h rfl
  | body entries => rfl

theorem held_typed (text : String) (content : Content β) : (content.typed text).held = content.held := by
  cases content <;> rfl

theorem held_extended {content : Content β} (h : content.shape = .statement) (more : List (Entry β)) :
    (content.extended more).held = content.held ++ more := by
  cases content with
  | value child literal => cases h
  | body entries => rfl

theorem held_eq_nil_iff {content : Content β} (h : content.shape = .value) :
    content.held = [] ↔ content.children = [] := by
  cases content with
  | value child literal => cases child <;> simp [held, children]
  | body entries => cases h

end Content

namespace Slot

def heldBy (slots : List (Slot β)) (name : String) : List (Entry β) :=
  slots.flatMap fun s => if s.name = name then s.content.held else []

theorem heldBy_cons (s : Slot β) (slots : List (Slot β)) (name : String) :
    heldBy (s :: slots) name = (if s.name = name then s.content.held else []) ++ heldBy slots name :=
  List.flatMap_cons

theorem heldBy_append (slots slots' : List (Slot β)) (name : String) :
    heldBy (slots ++ slots') name = heldBy slots name ++ heldBy slots' name :=
  List.flatMap_append

theorem heldBy_map (f : β → γ) (slots : List (Slot β)) (name : String) :
    heldBy (slots.map (Slot.map f)) name = (heldBy slots name).map (Entry.map f) := by
  rw [heldBy, heldBy, List.flatMap_map, List.map_flatMap]
  refine List.flatMap_congr fun s _ => ?_
  by_cases hs : s.name = name <;> simp [Slot.map, hs, Content.held_map]

theorem heldBy_of_notMem {slots : List (Slot β)} {name : String} (h : name ∉ slots.map Slot.name) :
    heldBy slots name = [] := by
  refine List.flatMap_eq_nil_iff.2 fun s hs => if_neg ?_
  rintro rfl
  exact h (List.mem_map_of_mem hs)

theorem heldBy_modify {slots : List (Slot β)} (hn : (slots.map Slot.name).Nodup) {i : Nat} {s : Slot β}
    (hs : slots[i]? = some s) (f : Content β → Content β) (name : String) :
    heldBy (slots.modify i fun s => { s with content := f s.content }) name =
      if s.name = name then (f s.content).held else heldBy slots name := by
  induction slots generalizing i with
  | nil => cases hs
  | cons s' slots ih =>
    rw [List.map_cons, List.nodup_cons] at hn
    cases i with
    | zero =>
      obtain rfl : s' = s := by simpa using hs
      rw [List.modify_zero_cons, heldBy_cons, heldBy_cons]
      by_cases hname : s'.name = name
      · rw [if_pos hname, if_pos hname, heldBy_of_notMem (hname ▸ hn.1), List.append_nil]
      · simp only [if_neg hname]
    | succ i =>
      have hs' : slots[i]? = some s := by simpa using hs
      rw [List.modify_succ_cons, heldBy_cons, heldBy_cons, ih hn.2 hs']
      by_cases hname : s.name = name
      · have hne : s'.name ≠ name := by
          rintro rfl
          exact hn.1 (hname ▸ List.mem_map_of_mem (List.mem_of_getElem? hs'))
        rw [if_pos hname, if_pos hname, if_neg hne, List.nil_append]
      · simp only [if_neg hname]

theorem heldBy_eq {slots : List (Slot β)} (hn : (slots.map Slot.name).Nodup) {i : Nat} {s : Slot β}
    (hs : slots[i]? = some s) : heldBy slots s.name = s.content.held := by
  have h := heldBy_modify hn hs (fun content => content) s.name
  rw [if_pos rfl] at h
  rw [← h]
  congr 1
  refine List.ext_getElem? fun j => ?_
  rw [List.getElem?_modify]
  cases slots[j]? <;> simp

end Slot

/-! ### Sketches of trees and of outlines -/

namespace Tree

def sketch : Tree → Sketch :=
  fold fun _ face slots chain => .node (some face) (Slot.heldBy slots) chain

theorem sketch_node (id : BlockId) (face : Face) (slots : List (Slot Tree)) (chain : List Tree) :
    (node id face slots chain).sketch =
      .node (some face) (fun name => (Slot.heldBy slots name).map (Entry.map sketch))
        (chain.map sketch) := by
  rw [sketch, fold_node]
  simp only [← Slot.heldBy_map]

theorem isElse_sketch (t : Tree) : t.sketch.isElse = t.isElse := by
  obtain ⟨id, face, slots, chain⟩ := t
  rw [sketch_node]
  rfl

theorem map_sketch_elseLast (ts : List Tree) :
    (elseLast ts).map sketch = Sketch.elseLast (ts.map sketch) := by
  have hfilter : ∀ (p : Tree → Bool) (q : Sketch → Bool), (∀ t, q t.sketch = p t) →
      (ts.filter p).map sketch = (ts.map sketch).filter q := by
    intro p q h
    rw [List.filter_map]
    exact congrArg (List.map sketch) (List.filter_congr fun t _ => (h t).symm)
  rw [elseLast, List.map_append, Sketch.elseLast, hfilter _ (fun k => !k.isElse), hfilter _ Sketch.isElse]
  · exact isElse_sketch
  · exact fun t => congrArg (!·) (isElse_sketch t)

end Tree

namespace Outline

mutual
def fold (f : Caption → List (Slot α) → List α → α) : Outline → α
  | .node given slots chain => f given (foldSlots f slots) (foldChain f chain)
def foldSlots (f : Caption → List (Slot α) → List α → α) : List (Slot Outline) → List (Slot α)
  | [] => []
  | ⟨name, .value none literal⟩ :: slots => ⟨name, .value none literal⟩ :: foldSlots f slots
  | ⟨name, .value (some o) literal⟩ :: slots =>
    ⟨name, .value (some (fold f o)) literal⟩ :: foldSlots f slots
  | ⟨name, .body entries⟩ :: slots => ⟨name, .body (foldBody f entries)⟩ :: foldSlots f slots
def foldBody (f : Caption → List (Slot α) → List α → α) : List (Entry Outline) → List (Entry α)
  | [] => []
  | .block o :: entries => .block (fold f o) :: foldBody f entries
  | .line text :: entries => .line text :: foldBody f entries
def foldChain (f : Caption → List (Slot α) → List α → α) : List Outline → List α
  | [] => []
  | o :: os => fold f o :: foldChain f os
end

theorem fold_node (f : Caption → List (Slot α) → List α → α) (given : Caption)
    (slots : List (Slot Outline)) (chain : List Outline) :
    fold f (.node given slots chain) =
      f given (slots.map (Slot.map (fold f))) (chain.map (fold f)) := by
  have hbody : ∀ entries, foldBody f entries = entries.map (Entry.map (fold f)) := by
    intro entries
    induction entries with
    | nil => rfl
    | cons e entries ih => cases e <;> simp [foldBody, ih, Entry.map]
  have hslots : ∀ slots, foldSlots f slots = slots.map (Slot.map (fold f)) := by
    intro slots
    induction slots with
    | nil => rfl
    | cons s slots ih =>
      obtain ⟨name, content⟩ := s
      cases content with
      | value child literal => cases child <;> simp [foldSlots, ih, Slot.map, Content.map]
      | body entries => simp [foldSlots, ih, hbody, Slot.map, Content.map]
  have hchain : ∀ chain, foldChain f chain = chain.map (fold f) := by
    intro chain
    induction chain with
    | nil => rfl
    | cons o os ih => simp [foldChain, ih]
  rw [fold, hslots, hchain]

def sketch : Outline → Sketch :=
  fold fun given slots chain => .node (some given.face) (Slot.heldBy slots) (Sketch.elseLast chain)

theorem sketch_node (given : Caption) (slots : List (Slot Outline)) (chain : List Outline) :
    (node given slots chain).sketch =
      .node (some given.face) (fun name => (Slot.heldBy slots name).map (Entry.map sketch))
        (Sketch.elseLast (chain.map sketch)) := by
  rw [sketch, fold_node]
  simp only [← Slot.heldBy_map]

def singles (slots : List (Slot Outline)) : List String :=
  (slots.filter fun g => g.shape == .value && !g.content.held.isEmpty).map Slot.name

theorem singles_cons (g : Slot Outline) (slots : List (Slot Outline)) :
    singles (g :: slots) = singles [g] ++ singles slots := by
  rw [singles, ← List.singleton_append, List.filter_append, List.map_append]
  rfl

inductive Single : Outline → Prop
  | node {given : Caption} {slots : List (Slot Outline)} {chain : List Outline} :
      (singles slots).Nodup → (∀ g ∈ slots, ∀ o ∈ g.children, Single o) → (∀ o ∈ chain, Single o) →
      Single (.node given slots chain)

def Grows (o : Outline) : Prop :=
  ∀ {c c' : Canvas} {id : BlockId} {b : Block}, c.Sound none → c.block? id = some b →
    b.Fresh o.kind → Document.fill c id o = .ok c' →
      c.Growth c' id ∧ ∃ t, c'.tree? id = some t ∧ t.kind = o.kind ∧ t.sketch = o.sketch

end Outline

namespace Tree

structure Gathers (t t' : Tree) (given : List (Slot Outline)) : Prop where
  face : t'.face = t.face
  chain : t'.chain = t.chain
  signature : t'.slots.map Slot.signature = t.slots.map Slot.signature
  held : ∀ name, (Slot.heldBy t'.slots name).map (Entry.map sketch) =
    (Slot.heldBy t.slots name).map (Entry.map sketch) ++
      (Slot.heldBy given name).map (Entry.map Outline.sketch)

def Vacant (t : Tree) (names : List String) : Prop :=
  ∀ s ∈ t.slots, s.shape = .value → s.name ∈ names → s.content.held = []

namespace Gathers
variable {t t' t'' : Tree} {given given' : List (Slot Outline)}

theorem nil (t : Tree) : t.Gathers t [] :=
  ⟨rfl, rfl, rfl, fun _ => (List.append_nil _).symm⟩

theorem append (h : t.Gathers t' given) (h' : t'.Gathers t'' given') :
    t.Gathers t'' (given ++ given') where
  face := h'.face.trans h.face
  chain := h'.chain.trans h.chain
  signature := h'.signature.trans h.signature
  held name := by
    rw [h'.held, h.held, List.append_assoc, ← List.map_append, ← Slot.heldBy_append]

theorem names (h : t.Gathers t' given) : t'.slots.map Slot.name = t.slots.map Slot.name := by
  have he := congrArg (List.map Prod.fst) h.signature
  rwa [List.map_map, List.map_map] at he

theorem reslot (hn : (t.slots.map Slot.name).Nodup) {index : Nat} {s : Slot Tree}
    (hs : t.slots[index]? = some s) {g : Slot Outline} (hname : s.name = g.name)
    {f : Content Tree → Content Tree} (hshape : (f s.content).shape = s.shape)
    (hheld : (f s.content).held.map (Entry.map sketch) =
      s.content.held.map (Entry.map sketch) ++ g.content.held.map (Entry.map Outline.sketch)) :
    t.Gathers (t.reslot index f) [g] := by
  obtain ⟨id, face, slots, chain⟩ := t
  replace hn : (slots.map Slot.name).Nodup := hn
  replace hs : slots[index]? = some s := hs
  refine ⟨rfl, rfl, ?_, fun name => ?_⟩
  · simp only [Tree.reslot, Tree.slots]
    refine List.ext_getElem? fun i => ?_
    rw [List.getElem?_map, List.getElem?_map, List.getElem?_modify]
    by_cases hi : index = i
    · subst hi
      simp [hs, Slot.signature, Slot.shape, hshape]
    · simp [hi]
  · simp only [Tree.reslot, Tree.slots]
    rw [Slot.heldBy_modify hn hs, Slot.heldBy_cons]
    by_cases h : s.name = name
    · subst h
      have hsame : Slot.heldBy slots s.name = s.content.held := Slot.heldBy_eq hn hs
      rw [if_pos rfl, if_pos hname.symm, hheld, hsame]
      simp [Slot.heldBy]
    · have h' : g.name ≠ name := hname ▸ h
      simp [h, h', Slot.heldBy]

theorem vacant {g : Slot Outline} {names : List String} (h : t.Gathers t' [g])
    (hn : (t.slots.map Slot.name).Nodup) (hv : t.Vacant names)
    (hg : ∀ s ∈ t.slots, s.shape = .value → s.name = g.name → s.name ∈ names → g.content.held = []) :
    t'.Vacant names := by
  intro s' hs' hvalue hmem
  obtain ⟨i, hi⟩ := List.getElem?_of_mem hs'
  have hsig : s'.signature ∈ t.slots.map Slot.signature :=
    h.signature ▸ List.mem_map_of_mem hs'
  obtain ⟨s, hs, he⟩ := List.mem_map.1 hsig
  have hname : s.name = s'.name := congrArg Prod.fst he
  have hshape : s.shape = .value := (congrArg Prod.snd he).trans hvalue
  obtain ⟨j, hj⟩ := List.getElem?_of_mem hs
  have hbefore : Slot.heldBy t.slots s'.name = [] := by
    rw [← hname, Slot.heldBy_eq hn hj]
    exact hv s hs hshape (hname ▸ hmem)
  have hadded : Slot.heldBy [g] s'.name = [] := by
    by_cases hsame : g.name = s'.name
    · have hnone := hg s hs hshape (hname.trans hsame.symm) (hname ▸ hmem)
      simp [Slot.heldBy, hnone]
    · simp [Slot.heldBy, hsame]
  have hheld := h.held s'.name
  rw [Slot.heldBy_eq (h.names ▸ hn) hi, hbefore, hadded] at hheld
  exact List.map_eq_nil_iff.1 hheld

end Gathers
end Tree

namespace Canvas
variable {c c' c₁ c₂ : Canvas} {id k : BlockId} {t : Tree} {index : Nat} {o : Outline}

/-! ### What a successful edit tells -/

theorem slotFor_eq_ok (h : c.Linked none) (ht : c.tree? id = some t) {kind : Kind} {name : String}
    {slot : SlotId} {shape : Shape} (hslot : Document.slotFor c id kind name = .ok (slot, shape)) :
    ∃ index s, t.slots[index]? = some s ∧ s.name = name ∧ slot = ⟨id, index⟩ ∧ shape = s.shape := by
  obtain ⟨b, hb, -⟩ := exists_block_of_tree? h ht
  have hslots := (block_of_tree? h hb ht).2.1
  simp only [Document.slotFor, slotNamed?, hb, Option.bind_some] at hslot
  cases hindex : b.slotIndex? name with
  | none => simp [hindex] at hslot
  | some index =>
    simp only [hindex, Option.map_some, slot?_eq hb] at hslot
    cases hs : t.slots[index]? with
    | none => simp [hslots, hs] at hslot
    | some s =>
      simp only [slot_of_tree? h hb ht hs, Except.ok.injEq, Prod.mk.injEq] at hslot
      obtain ⟨rfl, rfl⟩ := hslot
      obtain ⟨hlt, hname, -⟩ := List.findIdx?_eq_some_iff_getElem.1 hindex
      refine ⟨index, s, hs, ?_, rfl, Content.shape_filterMap _ s.content⟩
      have hget := slot_of_tree? h hb ht hs
      rw [List.getElem?_eq_getElem hlt, Option.some.injEq] at hget
      simpa [hget, Slot.filterMap] using hname

theorem growth_of_setLiteral (h : c.Sound none) (ht : c.tree? id = some t) {s : Slot Tree}
    (hs : t.slots[index]? = some s) (hv : s.shape = .value) {text : String}
    (hset : c.setLiteral ⟨id, index⟩ text = (c₁, .ok ())) :
    c.Growth c₁ id ∧ c₁.tree? id = some (t.reslot index (Content.typed text)) := by
  obtain ⟨c₁', heq, hgrow, -, htree⟩ := exists_setLiteral h ht hs hv text
  obtain rfl := congrArg Prod.fst (heq.symm.trans hset)
  exact ⟨hgrow, htree⟩

theorem growth_of_pushLine (h : c.Sound none) (ht : c.tree? id = some t) {s : Slot Tree}
    (hs : t.slots[index]? = some s) (hbody : s.shape = .statement) {text : String} {n : Nat}
    (hpush : c.pushLine ⟨id, index⟩ text = (c₁, .ok n)) :
    c.Growth c₁ id ∧ c₁.tree? id = some (t.reslot index (Content.extended [.line text])) := by
  have hplace : c.place ⟨id, index⟩ = .ok (.slot t.kind .statement) :=
    hbody ▸ place_of_tree? h.toLinked ht hs
  have hfits : canNest (.slot t.kind .statement) .typed = true := by
    cases hfits : canNest (.slot t.kind .statement) .typed with
    | false => simp [pushLine, hplace, hfits] at hpush
    | true => rfl
  obtain ⟨c₁', n', heq, hgrow, -, htree⟩ := exists_pushLine h ht hs hbody hfits text
  obtain rfl := congrArg Prod.fst (heq.symm.trans hpush)
  exact ⟨hgrow, htree⟩

theorem fits_of_instantiateInto (h : c.Linked none) (ht : c.tree? id = some t) {s : Slot Tree}
    (hs : t.slots[index]? = some s) {kind : Kind} {evicted : Option BlockId}
    (hinto : c.instantiateInto kind ⟨id, index⟩ = (c₁, .ok (k, evicted))) :
    canNest (.slot t.kind s.shape) (.block kind) = true := by
  have hplace : c.place ⟨id, index⟩ = .ok (.slot t.kind s.shape) := place_of_tree? h ht hs
  cases hfits : canNest (.slot t.kind s.shape) (.block kind) with
  | false => simp [instantiateInto, hplace, hfits] at hinto
  | true => rfl

theorem nested_of_instantiateInto (h : c.Sound none) (ht : c.tree? id = some t) {s : Slot Tree}
    (hs : t.slots[index]? = some s) (hroom : s.shape = .value → s.children = []) {kind : Kind}
    {evicted : Option BlockId} (hinto : c.instantiateInto kind ⟨id, index⟩ = (c₁, .ok (k, evicted))) :
    canNest (.slot t.kind s.shape) (.block kind) = true ∧ k = c.nextId ∧ c₁.nextId = c.nextId + 1 ∧
      c₁.Sound none ∧ ∃ b, c₁.block? k = some b ∧ b.Fresh kind ∧
        ∀ {c₂ : Canvas} {tk : Tree}, c₁.Growth c₂ k → c₂.tree? k = some tk →
          c.Growth c₂ id ∧ c₂.tree? id = some (t.reslot index (Content.graft tk)) := by
  have hfits := fits_of_instantiateInto h.toLinked ht hs hinto
  obtain ⟨c₁', b, heq, hs₁, hnext, hb, hfresh, hgrown⟩ := exists_nested h ht hs hfits hroom
  obtain ⟨rfl, hok⟩ := Prod.mk.inj (heq.symm.trans hinto)
  obtain ⟨rfl, -⟩ := Prod.mk.inj (Except.ok.inj hok)
  exact ⟨hfits, rfl, hnext, hs₁, b, hb, hfresh, hgrown⟩

theorem chains_of_attachConnector (h : c.Sound none) (ht : c.tree? id = some t) {kind : Kind}
    {p : Point Float}
    (hattach : (c.instantiate kind p).1.attachConnector c.nextId id = (c₁, .ok ())) :
    t.kind = .ifBranch ∧ (kind = .elseBranch → ∀ k ∈ t.chain, k.isElse = false) := by
  obtain ⟨head, hhead, rfl⟩ := exists_block_of_tree? h.toLinked ht
  have hlive : ∀ {x : BlockId} {a : Block}, c.block? x = some a →
      (c.instantiate kind p).1.block? x = some a := by
    intro x a ha
    rw [block?_instantiate h.toLinked, if_neg (Nat.ne_of_lt (Growth.lt_nextId h.toLinked ha)), ha]
  obtain ⟨b, hb, -, hcheck, -⟩ := attachConnector_eq_ok hattach
  obtain rfl : c.newborn kind p = b := by
    rwa [block?_instantiate h.toLinked, if_pos rfl, Option.some.injEq] at hb
  obtain ⟨a, ha, hif, -, hone⟩ := checkConnector_eq_ok_iff.1 hcheck
  obtain rfl := Option.some.inj ((hlive hhead).symm.trans ha)
  refine ⟨hif, fun he tk htk => ?_⟩
  obtain ⟨x, hx, hxt⟩ := List.mem_filterMap.1 htk
  obtain ⟨y, hy, -⟩ := exists_block_of_tree? h.toLinked hxt
  have helse := hone ((congrArg Face.kind rfl).trans ((Template.kind_face kind).trans he)) x hx (by
    rw [Ne, Option.some.injEq]
    exact Nat.ne_of_lt (Growth.lt_nextId h.toLinked hy))
  rw [← isElse_of_tree? h.toLinked hxt, isElse, kind?, hy]
  rwa [isElse, kind?, hlive hy] at helse

theorem connected_of_attachConnector (h : c.Sound none) (ht : c.tree? id = some t) {kind : Kind}
    (hconn : kind.isConnector = true) {p : Point Float}
    (hattach : (c.instantiate kind p).1.attachConnector c.nextId id = (c₁, .ok ())) :
    (t.kind = .ifBranch ∧ (kind = .elseBranch → ∀ k ∈ t.chain, k.isElse = false)) ∧
      c₁.nextId = c.nextId + 1 ∧ c₁.Sound none ∧ ∃ b, c₁.block? c.nextId = some b ∧ b.Fresh kind ∧
        ∀ {c₂ : Canvas} {tk : Tree}, c₁.Growth c₂ c.nextId → c₂.tree? c.nextId = some tk →
          tk.kind = kind →
            c.Growth c₂ id ∧ c₂.tree? id = some (t.rechain fun ts => Tree.elseLast (ts ++ [tk])) := by
  obtain ⟨hif, hone⟩ := chains_of_attachConnector h ht hattach
  obtain ⟨c₁', b, heq, hs₁, hnext, hb, hfresh, hgrown⟩ := exists_connected h ht hif hconn hone p
  obtain rfl := congrArg Prod.fst (heq.symm.trans hattach)
  exact ⟨⟨hif, hone⟩, hnext, hs₁, b, hb, hfresh, hgrown⟩

/-! ### Filling in what is accepted -/

theorem nested_of_ok (ho : o.Grows) (h : c.Sound none) (ht : c.tree? id = some t) {s : Slot Tree}
    (hs : t.slots[index]? = some s) (hroom : s.shape = .value → s.children = [])
    {evicted : Option BlockId} (hinto : c.instantiateInto o.kind ⟨id, index⟩ = (c₁, .ok (k, evicted)))
    (hfill : Document.fill c₁ k o = .ok c₂) :
    c.Growth c₂ id ∧ ∃ tk, tk.sketch = o.sketch ∧
      c₂.tree? id = some (t.reslot index (Content.graft tk)) := by
  obtain ⟨-, -, -, hs₁, b, hb, hfresh, hgrown⟩ := nested_of_instantiateInto h ht hs hroom hinto
  obtain ⟨hgrow, tk, htk, -, hsketch⟩ := ho hs₁ hb hfresh hfill
  obtain ⟨hall, htree⟩ := hgrown hgrow htk
  exact ⟨hall, tk, hsketch, htree⟩

theorem connected_of_ok (ho : o.Grows) (h : c.Sound none) (ht : c.tree? id = some t)
    (hconn : o.kind.isConnector = true) {p : Point Float}
    (hattach : (c.instantiate o.kind p).1.attachConnector c.nextId id = (c₁, .ok ()))
    (hfill : Document.fill c₁ c.nextId o = .ok c₂) :
    c.Growth c₂ id ∧ ∃ tk, tk.sketch = o.sketch ∧
      c₂.tree? id = some (t.rechain fun ts => Tree.elseLast (ts ++ [tk])) := by
  obtain ⟨-, -, hs₁, b, hb, hfresh, hgrown⟩ := connected_of_attachConnector h ht hconn hattach
  obtain ⟨hgrow, tk, htk, hkind, hsketch⟩ := ho hs₁ hb hfresh hfill
  obtain ⟨hall, htree⟩ := hgrown hgrow htk hkind
  exact ⟨hall, tk, hsketch, htree⟩

theorem grows_fillBody {entries : List (Entry Outline)}
    (hgrows : ∀ o ∈ (Content.body entries).children, o.Grows) (h : c.Sound none)
    (ht : c.tree? id = some t) {s : Slot Tree} (hs : t.slots[index]? = some s)
    (hbody : s.shape = .statement) (hfill : Document.fillBody c ⟨id, index⟩ entries = .ok c') :
    c.Growth c' id ∧ ∃ more : List (Entry Tree),
      more.map (Entry.map Tree.sketch) = entries.map (Entry.map Outline.sketch) ∧
        c'.tree? id = some (t.reslot index (Content.extended more)) := by
  obtain ⟨name, content⟩ := s
  obtain ⟨es, rfl⟩ := Content.exists_body hbody
  induction entries generalizing c t es with
  | nil =>
    obtain rfl := Except.ok.inj hfill
    refine ⟨.refl h id, [], rfl, ht.trans (congrArg some (Tree.reslot_self hs ?_).symm)⟩
    simp [Content.extended]
  | cons e entries ih =>
    cases e with
    | block o =>
      obtain ⟨c₁, k, evicted, c₂, hinto, hchild, hrest⟩ := Document.fillBody_block_eq_ok hfill
      obtain ⟨hgrow, tk, hsketch, htree⟩ := nested_of_ok (hgrows o (by simp [Content.children])) h ht hs
        (fun hv => by cases hv) hinto hchild
      obtain ⟨hgrow', more, hmore, htree'⟩ := ih (t := t.reslot index _)
        (fun o' ho' => hgrows o' (by simpa [Content.children] using Or.inr ho')) hgrow.sound htree hrest _
        (Tree.slots_reslot hs) rfl
      refine ⟨hgrow.trans hgrow', .block tk :: more, ?_, ?_⟩
      · rw [List.map_cons, List.map_cons, hmore, Entry.map, hsketch, Entry.map]
      · rw [htree', Tree.reslot_reslot]
        exact congrArg some (Tree.reslot_congr hs (by simp [Content.graft, Content.extended]))
    | line text =>
      obtain ⟨c₁, n, hpush, hrest⟩ := Document.fillBody_line_eq_ok hfill
      obtain ⟨hgrow, htree⟩ := growth_of_pushLine h ht hs rfl hpush
      obtain ⟨hgrow', more, hmore, htree'⟩ := ih (t := t.reslot index _) hgrows hgrow.sound htree hrest _
        (Tree.slots_reslot hs) rfl
      refine ⟨hgrow.trans hgrow', .line text :: more, ?_, ?_⟩
      · rw [List.map_cons, List.map_cons, hmore]
        rfl
      · rw [htree', Tree.reslot_reslot]
        exact congrArg some (Tree.reslot_congr hs (by simp [Content.extended]))

def GathersFirst (c c' : Canvas) (id : BlockId) (t : Tree) (kind : Kind) (g : Slot Outline)
    (given : List (Slot Outline)) : Prop :=
  ∃ c₁ t₁ s, Document.fillSlots c₁ id kind given = .ok c' ∧ c.Growth c₁ id ∧ c₁.tree? id = some t₁ ∧
    t.Gathers t₁ [g] ∧ s ∈ t.slots ∧ s.name = g.name ∧ (s.shape = .value → g.shape = .value)

section Slots
variable {kind : Kind} {name : String} {given : List (Slot Outline)}

theorem gathersFirst_body {entries : List (Entry Outline)}
    (hgrows : ∀ o ∈ (Content.body entries).children, o.Grows) (h : c.Sound none)
    (ht : c.tree? id = some t) (hn : (t.slots.map Slot.name).Nodup)
    (hfill : Document.fillSlots c id kind (⟨name, .body entries⟩ :: given) = .ok c') :
    GathersFirst c c' id t kind ⟨name, .body entries⟩ given := by
  obtain ⟨slot, shape, c₁, hslot, htakes, hrest⟩ := Document.fillSlots_cons_eq_ok hfill
  obtain ⟨index, s, hs, hname, rfl, hshape⟩ := slotFor_eq_ok h.toLinked ht hslot
  cases htakes with
  | body hentries =>
    obtain ⟨hgrow, more, hmore, htree⟩ := grows_fillBody hgrows h ht hs hshape.symm hentries
    refine ⟨c₁, _, s, hrest, hgrow, htree, .reslot hn hs hname ?_ ?_, List.mem_of_getElem? hs, hname,
      fun hv => by cases hshape.trans hv⟩
    · rw [Content.shape_extended]
      rfl
    · rw [Content.held_extended hshape.symm, List.map_append, hmore]
      rfl

theorem gathersFirst_literal {literal : String} (h : c.Sound none) (ht : c.tree? id = some t)
    (hn : (t.slots.map Slot.name).Nodup)
    (hfill : Document.fillSlots c id kind (⟨name, .value none literal⟩ :: given) = .ok c') :
    GathersFirst c c' id t kind ⟨name, .value none literal⟩ given := by
  obtain ⟨slot, shape, c₁, hslot, htakes, hrest⟩ := Document.fillSlots_cons_eq_ok hfill
  obtain ⟨index, s, hs, hname, rfl, hshape⟩ := slotFor_eq_ok h.toLinked ht hslot
  have hmem := List.mem_of_getElem? hs
  have hnone : ∀ f : Content Tree → Content Tree, (f s.content).shape = s.shape →
      (f s.content).held = s.content.held →
        t.Gathers (t.reslot index f) [⟨name, .value none literal⟩] := fun f hshape hheld =>
    .reslot hn hs hname hshape (by rw [hheld]; exact (List.append_nil _).symm)
  cases htakes with
  | nothing =>
    refine ⟨c, _, s, hrest, .refl h id, ?_, hnone (fun content => content) rfl rfl, hmem, hname,
      fun _ => rfl⟩
    rw [ht, Tree.reslot_self hs rfl]
  | literal hset =>
    obtain ⟨hgrow, htree⟩ := growth_of_setLiteral h ht hs hshape.symm hset
    exact ⟨_, _, s, hrest, hgrow, htree,
      hnone _ (Content.shape_typed _ _) (Content.held_typed _ _), hmem, hname, fun _ => rfl⟩

theorem gathersFirst_block {literal : String} (ho : o.Grows) (h : c.Sound none)
    (ht : c.tree? id = some t) (hn : (t.slots.map Slot.name).Nodup) (hvacant : t.Vacant [name])
    (hfill : Document.fillSlots c id kind (⟨name, .value (some o) literal⟩ :: given) = .ok c') :
    GathersFirst c c' id t kind ⟨name, .value (some o) literal⟩ given := by
  obtain ⟨slot, shape, c₃, hslot, htakes, hrest⟩ := Document.fillSlots_cons_eq_ok hfill
  obtain ⟨index, s, hs, hname, rfl, hvalue⟩ := slotFor_eq_ok h.toLinked ht hslot
  have hmem := List.mem_of_getElem? hs
  cases htakes with
  | block hset hinto hchild =>
    have hv := hvalue.symm
    obtain ⟨hgrow, htree⟩ := growth_of_setLiteral h ht hs hv hset
    have hempty : s.content.held = [] := hvacant s hmem hv (hname ▸ List.mem_singleton_self _)
    have hroom : (s.content.typed literal).held = [] := by rw [Content.held_typed, hempty]
    have hshape : (s.content.typed literal).shape = .value := by rw [Content.shape_typed]; exact hv
    obtain ⟨hgrow', tk, hsketch, htree'⟩ := nested_of_ok (t := Tree.reslot index _ _) ho hgrow.sound
      htree (Tree.slots_reslot hs) (fun _ => (Content.held_eq_nil_iff hshape).1 hroom) hinto hchild
    rw [Tree.reslot_reslot] at htree'
    refine ⟨_, _, s, hrest, hgrow.trans hgrow', htree', .reslot hn hs hname ?_ ?_, hmem, hname,
      fun _ => rfl⟩
    · rw [Content.shape_graft, Content.shape_typed]
      rfl
    · rw [Content.held_graft tk fun _ => hroom, hroom, hempty]
      simp [Content.held, Entry.map, hsketch]

theorem gathersFirst {g : Slot Outline} (hgrows : ∀ o ∈ g.children, o.Grows) (h : c.Sound none)
    (ht : c.tree? id = some t) (hn : (t.slots.map Slot.name).Nodup)
    (hvacant : t.Vacant (Outline.singles [g]))
    (hfill : Document.fillSlots c id kind (g :: given) = .ok c') :
    GathersFirst c c' id t kind g given := by
  obtain ⟨name, content⟩ := g
  cases content with
  | body entries => exact gathersFirst_body hgrows h ht hn hfill
  | value child literal =>
    cases child with
    | none => exact gathersFirst_literal h ht hn hfill
    | some o => exact gathersFirst_block (hgrows o (List.mem_singleton_self o)) h ht hn hvacant hfill

theorem grows_fillSlots (hgrows : ∀ g ∈ given, ∀ o ∈ g.children, o.Grows)
    (hsingles : (Outline.singles given).Nodup) (h : c.Sound none) (ht : c.tree? id = some t)
    (hn : (t.slots.map Slot.name).Nodup) (hvacant : t.Vacant (Outline.singles given))
    (hfill : Document.fillSlots c id kind given = .ok c') :
    c.Growth c' id ∧ ∃ t', c'.tree? id = some t' ∧ t.Gathers t' given := by
  induction given generalizing c t with
  | nil =>
    obtain rfl := Except.ok.inj hfill
    exact ⟨.refl h id, t, ht, .nil t⟩
  | cons g given ih =>
    rw [Outline.singles_cons] at hsingles hvacant
    obtain ⟨hsingles', hapart⟩ := List.nodup_append.1 hsingles |>.2
    obtain ⟨c₁, t₁, s, hrest, hgrow, htree, hg, hs, hname, hvalue⟩ :=
      gathersFirst (hgrows g List.mem_cons_self) h ht hn
        (fun s hs hv hm => hvacant s hs hv (List.mem_append_left _ hm)) hfill
    have hvacant₁ : t₁.Vacant (Outline.singles given) := by
      refine hg.vacant hn (fun s hs hv hm => hvacant s hs hv (List.mem_append_right _ hm))
        fun s' hs' hv hname' hm => ?_
      obtain rfl := List.inj_on_of_nodup_map hn hs' hs (hname'.trans hname.symm)
      by_contra hheld
      have hsingle : g.name ∈ Outline.singles [g] := by simp [Outline.singles, hvalue hv, hheld]
      exact hapart g.name hsingle g.name (hname ▸ hm) rfl
    obtain ⟨hgrow', t', ht', hgs⟩ := ih (fun g hg => hgrows g (List.mem_cons_of_mem _ hg)) hsingles'
      hgrow.sound htree (hg.names ▸ hn) hvacant₁ hrest
    exact ⟨hgrow.trans hgrow', t', ht', hg.append hgs⟩

end Slots

theorem grows_fillChain {given : List Outline} {face : Face} {slots : List (Slot Tree)}
    (hgrows : ∀ o ∈ given, o.Grows) (done : List Tree) (h : c.Sound none)
    (ht : c.tree? id = some (.node id face slots (Tree.elseLast done))) {p : Point Float}
    (hfill : Document.fillChain c id p given = .ok c') :
    c.Growth c' id ∧ ∃ more : List Tree, more.map Tree.sketch = given.map Outline.sketch ∧
      c'.tree? id = some (.node id face slots (Tree.elseLast (done ++ more))) := by
  induction given generalizing c done with
  | nil =>
    obtain rfl := Except.ok.inj hfill
    exact ⟨.refl h id, [], rfl, by rw [List.append_nil, ht]⟩
  | cons o given ih =>
    obtain ⟨hconn, c₁, c₂, hattach, hchild, hrest⟩ := Document.fillChain_cons_eq_ok hfill
    obtain ⟨hgrow, tk, hsketch, htree⟩ :=
      connected_of_ok (hgrows o List.mem_cons_self) h ht hconn hattach hchild
    rw [Tree.rechain, Tree.elseLast_append_elseLast] at htree
    obtain ⟨hgrow', more, hmore, htree'⟩ := ih (fun o ho => hgrows o (List.mem_cons_of_mem _ ho)) _
      hgrow.sound htree hrest
    refine ⟨hgrow.trans hgrow', tk :: more, ?_, ?_⟩
    · rw [List.map_cons, List.map_cons, hsketch, hmore]
    · rw [htree', List.append_assoc, List.singleton_append]

end Canvas

namespace Outline

theorem Single.grows {o : Outline} (h : o.Single) : o.Grows := by
  induction h with
  | @node given slots chain hsingles _ _ ihslots ihchain =>
    intro c c' id b hc hb hfresh hfill
    have hkind : (Outline.node given slots chain).kind = given.kind := rfl
    have ht := Canvas.tree?_fresh hc.toLinked hb hfresh
    rw [hkind] at ht
    obtain ⟨c₁, c₂, hcaption, hslots, hchain⟩ := Document.fill_eq_ok hfill
    obtain ⟨c₁', heq, hgrow₁, -, htree₁⟩ := Canvas.exists_caption hc ht
    obtain rfl := Except.ok.inj (heq.symm.trans hcaption)
    have hvacant : Tree.Vacant (.node id given.face (Template.slots given.kind) []) (singles slots) := by
      intro s hs hv _
      rw [Template.content_eq hs, hv]
      rfl
    obtain ⟨hgrow₂, ⟨id', face, slots', chain'⟩, htree₂, hgathers⟩ := Canvas.grows_fillSlots ihslots
      hsingles hgrow₁.sound htree₁ (Template.nodup_names Tree given.kind) hvacant hslots
    obtain rfl : id' = id := Canvas.id_of_tree? hgrow₂.sound.toLinked htree₂
    obtain rfl : face = given.face := hgathers.face
    obtain rfl : chain' = [] := hgathers.chain
    obtain ⟨hgrow₃, more, hmore, htree₃⟩ :=
      Canvas.grows_fillChain ihchain [] hgrow₂.sound htree₂ hchain
    refine ⟨(hgrow₁.trans hgrow₂).trans hgrow₃, _, htree₃, given.kind_face, ?_⟩
    rw [Tree.sketch_node, sketch_node, List.nil_append, Tree.map_sketch_elseLast, hmore]
    congr 1
    funext name
    -- the slots from the palette are empty, so they hold what was gathered and nothing else
    have hempty : Slot.heldBy (Template.slots (β := Tree) given.kind) name = [] := by
      refine List.flatMap_eq_nil_iff.2 fun s hs => ?_
      have hnone : s.content.held = [] := by
        rw [Template.content_eq hs]
        cases s.shape <;> rfl
      rw [hnone, ite_self]
    have hheld := hgathers.held name
    simp only [Tree.slots, hempty, List.map_nil, List.nil_append] at hheld
    exact hheld

end Outline

namespace Canvas
variable {c c' : Canvas}

theorem grows_placeAll {os : List Outline} (hsingle : ∀ o ∈ os, o.Single) (h : c.Sound none)
    (hplace : Document.placeAll c os = .ok c') :
    ∃ roots, c'.forest = c.forest ++ roots ∧
      roots.map (fun r => r.tree.sketch) = os.map Outline.sketch := by
  induction os generalizing c with
  | nil =>
    obtain rfl := Except.ok.inj hplace
    exact ⟨[], (List.append_nil _).symm, rfl⟩
  | cons o os ih =>
    obtain ⟨-, c₁, hfill, hrest⟩ := Document.placeAll_cons_eq_ok hplace
    have hnew : (c.instantiate o.kind o.caption.position).1.block? c.nextId =
        some (c.newborn o.kind o.caption.position) := by
      rw [block?_instantiate h.toLinked, if_pos rfl]
    obtain ⟨hgrow, t, ht, -, hsketch⟩ := (hsingle o List.mem_cons_self).grows
      (sound_instantiate h o.kind o.caption.position) hnew ⟨rfl, rfl, rfl⟩ hfill
    obtain ⟨roots, hforest, hroots⟩ :=
      ih (fun o ho => hsingle o (List.mem_cons_of_mem _ ho)) hgrow.sound hrest
    refine ⟨⟨o.caption.position, t⟩ :: roots, ?_, ?_⟩
    · rw [hforest, forest_placed h hgrow ht, List.append_assoc, List.singleton_append]
    · rw [List.map_cons, List.map_cons, hsketch, hroots]

end Canvas

/-- If a document is built at all, the canvas holds what its blocks say. -/
theorem Document.sketch_build {d : Document} {c : Canvas} (hsingle : ∀ o ∈ d.blocks, o.Single)
    (h : d.build = .ok c) :
    c.forest.map (fun r => r.tree.sketch) = d.blocks.map Outline.sketch := by
  rw [Document.build_eq] at h
  obtain ⟨c₁, hplace, h⟩ := Document.bind_eq_ok h
  obtain rfl := Except.ok.inj h
  obtain ⟨roots, hforest, hroots⟩ := Canvas.grows_placeAll hsingle d.sound_ground hplace
  have hdrained : c₁.drainEvents.2.forest = c₁.forest := Canvas.forest_congr rfl rfl
  rw [hdrained, hforest, List.map_append, hroots]
  rfl

end BlockCanvas
