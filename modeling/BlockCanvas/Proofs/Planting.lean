import BlockCanvas.Document.Build
import BlockCanvas.Proofs.Population

/-!
What a document comes to. `Outline.plant` is the tree of a block that is built from its outline, with the
ids it and the blocks below it are given: the next ones, in the order in which the document is read.
`Outline.Legal` says which outlines can be built.
-/
namespace BlockCanvas

namespace Caption

def face (given : Caption) : Face :=
  let fresh := Template.face given.kind
  { fresh with
    name := given.name.getD fresh.name
    operator := given.operator.or fresh.operator
    override := given.override.or fresh.override }

theorem kind_face (given : Caption) : given.face.kind = given.kind :=
  Template.kind_face given.kind

end Caption

namespace Slot
variable {β : Type}

def filled (given : List (Slot β)) (s : Slot β) : Slot β :=
  { s with
    content := ((given.find? fun g => g.signature == s.signature).map Slot.content).getD s.content }

theorem find?_signature_of_notMem {given : List (Slot β)} {s : Slot β}
    (h : s.name ∉ given.map Slot.name) : (given.find? fun g => g.signature == s.signature) = none := by
  refine List.find?_eq_none.2 fun g hg he => h ?_
  have hs : g.signature = s.signature := by simpa using he
  exact List.mem_map.2 ⟨g, hg, congrArg Prod.fst hs⟩

theorem filled_of_notMem {given : List (Slot β)} {s : Slot β} (h : s.name ∉ given.map Slot.name) :
    s.filled given = s := by
  simp [filled, find?_signature_of_notMem h]

theorem filled_append_of_ne {given : List (Slot β)} {g s : Slot β} (h : g.signature ≠ s.signature) :
    s.filled (given ++ [g]) = s.filled given := by
  simp [filled, List.find?_append, h]

theorem filled_append_self {given : List (Slot β)} {g s : Slot β} (h : g.signature = s.signature)
    (hn : s.name ∉ given.map Slot.name) :
    s.filled (given ++ [g]) = { s with content := g.content } := by
  simp [filled, List.find?_append, find?_signature_of_notMem hn, h]

theorem signature_filled (given : List (Slot β)) (s : Slot β) :
    (s.filled given).signature = s.signature := by
  rw [filled]
  cases hg : given.find? fun g => g.signature == s.signature with
  | none => rfl
  | some g =>
    have he : g.signature = s.signature := by simpa using List.find?_some hg
    exact congrArg (fun shape => (s.name, shape)) (congrArg Prod.snd he)

end Slot

namespace Template

def arranged {β : Type} (kind : Kind) (given : List (Slot β)) : List (Slot β) :=
  (Template.slots kind).map (Slot.filled given)

theorem getElem?_arranged {β : Type} {kind : Kind} {given : List (Slot β)} {i : Nat} {s : Slot β}
    (hs : (Template.slots (β := β) kind)[i]? = some s) (hn : s.name ∉ given.map Slot.name) :
    (arranged kind given)[i]? = some s := by
  rw [arranged, List.getElem?_map, hs, Option.map_some, Slot.filled_of_notMem hn]

theorem nodup_names (β : Type) (kind : Kind) :
    ((Template.slots (β := β) kind).map Slot.name).Nodup := by
  cases kind <;> simp [Template.slots, Slot.value, Slot.body]

theorem index_unique {β : Type} {kind : Kind} {i j : Nat} {s s' : Slot β}
    (hi : (Template.slots (β := β) kind)[i]? = some s)
    (hj : (Template.slots (β := β) kind)[j]? = some s') (hname : s.name = s'.name) : i = j := by
  have hi' : ((Template.slots (β := β) kind).map Slot.name)[i]? = some s.name := by simp [hi]
  have hj' : ((Template.slots (β := β) kind).map Slot.name)[j]? = some s.name := by simp [hj, hname]
  have hlt := (List.getElem?_eq_some_iff.1 hi').1
  exact (List.getElem?_inj hlt (nodup_names β kind)).1 (hi'.trans hj'.symm)

theorem content_eq {β : Type} {kind : Kind} {s : Slot β} (hs : s ∈ Template.slots (β := β) kind) :
    s.content = match s.shape with
      | .value => .value none ""
      | .statement => .body [] := by
  cases kind <;> simp [Template.slots, Slot.value, Slot.body] at hs <;>
    rcases hs with rfl | rfl | rfl | rfl <;> rfl

theorem filterMap_slots {β γ : Type} (f : β → Option γ) (kind : Kind) :
    (Template.slots kind).map (Slot.filterMap f) = Template.slots kind := by
  cases kind <;> rfl

theorem canNest_typed {β : Type} {kind : Kind} {s : Slot β} (hs : s ∈ Template.slots (β := β) kind)
    (hshape : s.shape = .statement) : canNest (.slot kind .statement) .typed = true := by
  cases kind <;> first
    | rfl
    | simp [Template.slots, Slot.value] at hs
      rcases hs with rfl | rfl <;> cases hshape

theorem signature_eq (β γ : Type) (kind : Kind) :
    (Template.slots (β := β) kind).map Slot.signature =
      (Template.slots (β := γ) kind).map Slot.signature := by
  cases kind <;> rfl

theorem arranged_append {β : Type} {kind : Kind} {given : List (Slot β)} {g s : Slot β} {i : Nat}
    (hs : (Template.slots (β := β) kind)[i]? = some s) (hg : g.signature = s.signature)
    (hn : g.name ∉ given.map Slot.name) :
    arranged kind (given ++ [g]) =
      (arranged kind given).modify i fun s => { s with content := g.content } := by
  have hname : g.name = s.name := congrArg Prod.fst hg
  refine List.ext_getElem? fun j => ?_
  rw [List.getElem?_modify, arranged, arranged, List.getElem?_map, List.getElem?_map]
  by_cases hj : i = j
  · subst hj
    simp [hs, Slot.filled_append_self hg (hname ▸ hn), Slot.filled_of_notMem (hname ▸ hn)]
  · cases hs' : (Template.slots (β := β) kind)[j]? with
    | none => simp
    | some s' =>
      have hne : g.signature ≠ s'.signature := by
        intro he
        exact hj (index_unique hs hs' (hname.symm.trans (congrArg Prod.fst he)))
      simp [hj, Slot.filled_append_of_ne hne]

theorem arranged_append_of_ne {β : Type} {kind : Kind} {given : List (Slot β)} {g : Slot β}
    (h : ∀ s ∈ Template.slots (β := β) kind, g.signature ≠ s.signature) :
    arranged kind (given ++ [g]) = arranged kind given :=
  List.map_congr_left fun s hs => Slot.filled_append_of_ne (h s hs)

theorem arranged_nil {β : Type} (kind : Kind) :
    arranged kind ([] : List (Slot β)) = Template.slots kind :=
  (List.map_congr_left fun _ _ => Slot.filled_of_notMem (by simp)).trans (List.map_id _)

end Template

namespace Tree

def isElse (t : Tree) : Bool :=
  t.kind == .elseBranch

def elseLast (ts : List Tree) : List Tree :=
  ts.filter (fun t => !t.isElse) ++ ts.filter isElse

theorem mem_elseLast {ts : List Tree} {t : Tree} : t ∈ elseLast ts ↔ t ∈ ts := by
  cases h : t.isElse <;> simp [elseLast, h]

theorem elseLast_append_elseLast (ts : List Tree) (t : Tree) :
    elseLast (elseLast ts ++ [t]) = elseLast (ts ++ [t]) := by
  simp [elseLast, List.filter_append, List.filter_filter]

end Tree

namespace Outline

mutual
def plant (id n : BlockId) : Outline → Tree × BlockId
  | .node given slots chain =>
    let planted := plantSlots n slots
    let chained := plantChain planted.2 chain
    (.node id given.face (Template.arranged given.kind planted.1) (Tree.elseLast chained.1),
      chained.2)
def plantSlots (n : BlockId) : List (Slot Outline) → List (Slot Tree) × BlockId
  | [] => ([], n)
  | ⟨name, .value none literal⟩ :: slots =>
    let rest := plantSlots n slots
    (⟨name, .value none literal⟩ :: rest.1, rest.2)
  | ⟨name, .value (some child) literal⟩ :: slots =>
    let planted := plant n (n + 1) child
    let rest := plantSlots planted.2 slots
    (⟨name, .value (some planted.1) literal⟩ :: rest.1, rest.2)
  | ⟨name, .body entries⟩ :: slots =>
    let planted := plantBody n entries
    let rest := plantSlots planted.2 slots
    (⟨name, .body planted.1⟩ :: rest.1, rest.2)
def plantBody (n : BlockId) : List (Entry Outline) → List (Entry Tree) × BlockId
  | [] => ([], n)
  | .block child :: entries =>
    let planted := plant n (n + 1) child
    let rest := plantBody planted.2 entries
    (.block planted.1 :: rest.1, rest.2)
  | .line text :: entries =>
    let rest := plantBody n entries
    (.line text :: rest.1, rest.2)
def plantChain (n : BlockId) : List Outline → List Tree × BlockId
  | [] => ([], n)
  | connector :: rest =>
    let planted := plant n (n + 1) connector
    let others := plantChain planted.2 rest
    (planted.1 :: others.1, others.2)
end

theorem kind_plant (o : Outline) (id n : BlockId) : (o.plant id n).1.kind = o.kind := by
  obtain ⟨given, slots, chain⟩ := o
  exact given.kind_face

def plantAll (n : BlockId) : List Outline → List Root
  | [] => []
  | o :: os =>
    let planted := o.plant n (n + 1)
    ⟨o.caption.position, planted.1⟩ :: plantAll planted.2 os

/-- What is said of a slot fits a slot of the kind. Nothing at all may be said of any slot. -/
inductive Fits (kind : Kind) : Slot Outline → Prop
  | nothing {name : String} {shape : Shape} :
      (name, shape) ∈ (Template.slots (β := BlockId) kind).map Slot.signature →
        Fits kind ⟨name, .value none ""⟩
  | content {s : Slot Outline} :
      s.signature ∈ (Template.slots (β := BlockId) kind).map Slot.signature →
        (∀ o ∈ s.children, canNest (.slot kind s.shape) (.block o.kind) = true) → Fits kind s

theorem Fits.exists_slot {kind : Kind} {g : Slot Outline} (h : Fits kind g) :
    ∃ (i : Nat) (s : Slot Tree), (Template.slots kind)[i]? = some s ∧ s.name = g.name ∧
      (g.content = .value none "" ∨ (s.shape = g.shape ∧
        ∀ o ∈ g.children, canNest (.slot kind g.shape) (.block o.kind) = true)) := by
  have hfound : ∀ {sig : String × Shape},
      sig ∈ (Template.slots (β := BlockId) kind).map Slot.signature →
        ∃ (i : Nat) (s : Slot Tree), (Template.slots kind)[i]? = some s ∧ s.signature = sig := by
    intro sig hm
    rw [Template.signature_eq BlockId Tree] at hm
    obtain ⟨s, hs, hsig⟩ := List.mem_map.1 hm
    obtain ⟨i, hi⟩ := List.getElem?_of_mem hs
    exact ⟨i, s, hi, hsig⟩
  cases h with
  | nothing hm =>
    obtain ⟨i, s, hi, hsig⟩ := hfound hm
    exact ⟨i, s, hi, congrArg Prod.fst hsig, Or.inl rfl⟩
  | content hm hnest =>
    obtain ⟨i, s, hi, hsig⟩ := hfound hm
    exact ⟨i, s, hi, congrArg Prod.fst hsig, Or.inr ⟨congrArg Prod.snd hsig, hnest⟩⟩

inductive Legal : Outline → Prop
  | node {given : Caption} {slots : List (Slot Outline)} {chain : List Outline} :
      (slots.map Slot.name).Nodup → (∀ s ∈ slots, Fits given.kind s) →
      (chain ≠ [] → given.kind = .ifBranch) → (∀ o ∈ chain, o.kind.isConnector = true) →
      (chain.Pairwise fun o o' => ¬ (o.kind = .elseBranch ∧ o'.kind = .elseBranch)) →
      (∀ s ∈ slots, ∀ o ∈ s.children, Legal o) → (∀ o ∈ chain, Legal o) →
      Legal (.node given slots chain)

end Outline
end BlockCanvas
