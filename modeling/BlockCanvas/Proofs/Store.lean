import BlockCanvas.Canvas.Edit
import Mathlib.Data.List.Basic

/-!
Reading a canvas. Everything ownership is about is seen through three views: the owner a block names,
the list an owner keeps, and the kind of a block. Each elementary change of the store says here once
what it does to a look-up, and later modules do not open it again.
-/
namespace BlockCanvas

namespace Owner

def host? : Owner → Option BlockId
  | .free => none
  | .slot place => some place.host
  | .chain head => some head

end Owner

namespace Entry
variable {β γ : Type}

@[simp]
theorem block?_block (b : β) : (Entry.block b).block? = some b :=
  rfl

@[simp]
theorem block?_line (text : String) : (Entry.line text : Entry β).block? = none :=
  rfl

@[simp]
theorem filterMap_block (f : β → Option γ) (b : β) :
    Entry.filterMap f (.block b) = (f b).map .block :=
  rfl

@[simp]
theorem filterMap_line (f : β → Option γ) (text : String) :
    Entry.filterMap f (.line text) = some (.line text) :=
  rfl

end Entry

namespace Content

@[simp]
theorem children_unlink (id : BlockId) (content : Content BlockId) :
    (content.unlink id).children = content.children.filter (· != id) := by
  cases content with
  | value child literal =>
    cases child with
    | none => rfl
    | some k => by_cases hk : k = id <;> simp [unlink, children, hk]
  | body entries =>
    simp only [unlink, children, List.filterMap_filter, List.filter_filterMap]
    refine List.filterMap_congr fun e _ => ?_
    cases e with
    | line text => simp
    | block k => by_cases hk : k = id <;> simp [hk, Option.filter]

theorem unlink_of_notMem {id : BlockId} {content : Content BlockId} (h : id ∉ content.children) :
    content.unlink id = content := by
  cases content with
  | value child literal =>
    cases child with
    | none => rfl
    | some k =>
      have hk : k ≠ id := by simpa [children, eq_comm] using h
      simp [unlink, hk]
  | body entries =>
    have he : ∀ e ∈ entries, e.block? ≠ some id := by
      intro e hm hb
      exact h (List.mem_filterMap.2 ⟨e, hm, hb⟩)
    simpa [unlink] using he

@[simp]
theorem shape_unlink (id : BlockId) (content : Content BlockId) :
    (content.unlink id).shape = content.shape := by
  cases content <;> rfl

@[simp]
theorem shape_link (id : BlockId) (content : Content BlockId) :
    (content.link id).shape = content.shape := by
  cases content <;> rfl

theorem children_link {id : BlockId} {content : Content BlockId}
    (h : content.shape = .value → content.children = []) :
    (content.link id).children = content.children ++ [id] := by
  cases content with
  | value child literal =>
    cases child with
    | none => rfl
    | some k => simp [children, shape] at h
  | body entries => simp [link, children]

theorem filterMap_congr {β γ : Type} {f g : β → Option γ} {content : Content β}
    (h : ∀ b ∈ content.children, f b = g b) : content.filterMap f = content.filterMap g := by
  cases content with
  | value child literal =>
    cases child with
    | none => rfl
    | some k => simp [filterMap, h k (by simp [children])]
  | body entries =>
    have he : ∀ e ∈ entries, Entry.filterMap f e = Entry.filterMap g e := by
      intro e hm
      cases e with
      | line text => rfl
      | block b => simp [h b (List.mem_filterMap.2 ⟨_, hm, rfl⟩)]
    simp [filterMap, List.filterMap_congr he]

@[simp]
theorem filterMap_filterMap {β γ δ : Type} (f : β → Option γ) (g : γ → Option δ) (content : Content β) :
    (content.filterMap f).filterMap g = content.filterMap fun b => (f b).bind g := by
  cases content with
  | value child literal => cases child <;> simp [filterMap]
  | body entries =>
    simp only [filterMap, List.filterMap_filterMap, Content.body.injEq]
    refine List.filterMap_congr fun e _ => ?_
    cases e with
    | line text => rfl
    | block b => cases hb : f b <;> simp [hb]

theorem children_filterMap {β γ : Type} (f : β → Option γ) (content : Content β) :
    (content.filterMap f).children = content.children.filterMap f := by
  cases content with
  | value child literal =>
    cases child with
    | none => rfl
    | some k => cases hk : f k <;> simp [filterMap, children, hk]
  | body entries =>
    simp only [filterMap, children, List.filterMap_filterMap]
    refine List.filterMap_congr fun e _ => ?_
    cases e with
    | line text => rfl
    | block b => cases hb : f b <;> simp [hb]

@[simp]
theorem shape_filterMap {β γ : Type} (f : β → Option γ) (content : Content β) :
    (content.filterMap f).shape = content.shape := by
  cases content <;> rfl

end Content

namespace Slot

def signature {β : Type} (s : Slot β) : String × Shape :=
  (s.name, s.shape)

def without (id : BlockId) (s : Slot BlockId) : Slot BlockId :=
  { s with content := s.content.unlink id }

@[simp]
theorem children_without (id : BlockId) (s : Slot BlockId) :
    (s.without id).children = s.children.filter (· != id) :=
  Content.children_unlink id s.content

@[simp]
theorem signature_without (id : BlockId) (s : Slot BlockId) :
    (s.without id).signature = s.signature := by
  simp [signature, without, shape]

theorem without_of_notMem {id : BlockId} {s : Slot BlockId} (h : id ∉ s.children) :
    s.without id = s := by
  cases s
  simp only [without, Content.unlink_of_notMem h]

@[simp]
theorem children_filterMap {β γ : Type} (f : β → Option γ) (s : Slot β) :
    (s.filterMap f).children = s.children.filterMap f :=
  Content.children_filterMap f s.content

@[simp]
theorem signature_filterMap {β γ : Type} (f : β → Option γ) (s : Slot β) :
    (s.filterMap f).signature = s.signature := by
  simp [signature, filterMap, shape]

theorem filterMap_congr {β γ : Type} {f g : β → Option γ} {s : Slot β}
    (h : ∀ b ∈ s.children, f b = g b) : s.filterMap f = s.filterMap g := by
  simp only [filterMap, Content.filterMap_congr h]

theorem filterMap_filterMap {β γ δ : Type} (f : β → Option γ) (g : γ → Option δ) (s : Slot β) :
    (s.filterMap f).filterMap g = s.filterMap fun b => (f b).bind g := by
  simp only [filterMap, Content.filterMap_filterMap]

end Slot

namespace Block

def reslot (index : Nat) (f : Content BlockId → Content BlockId) (b : Block) : Block :=
  { b with slots := b.slots.modify index fun s => { s with content := f s.content } }

def strip (id : BlockId) (b : Block) : Block :=
  { b with slots := b.slots.map (Slot.without id), chain := b.chain.filter (· != id) }

/-- The block once another one is in no list; that one is free from then on. -/
def without (id : BlockId) (b : Block) : Block :=
  { b.strip id with owner := if b.id = id then .free else b.owner }

theorem mem_owned {b : Block} {k : BlockId} :
    k ∈ b.owned ↔ (∃ s ∈ b.slots, k ∈ s.children) ∨ k ∈ b.chain := by
  simp [owned]

end Block

namespace Canvas
variable {c c' : Canvas} {id x : BlockId}

def owner? (c : Canvas) (id : BlockId) : Option Owner :=
  (c.block? id).map Block.owner

def listed (c : Canvas) : Owner → List BlockId
  | .free => c.roots
  | .slot slot => ((c.slot? slot).map Slot.children).getD []
  | .chain head => ((c.block? head).map Block.chain).getD []

theorem parent?_eq (c : Canvas) (id : BlockId) : c.parent? id = (c.owner? id).bind Owner.host? := by
  unfold parent? owner?
  cases c.block? id with
  | none => rfl
  | some b => cases hb : b.owner <;> simp [hb, Owner.host?]

theorem id_of_block? {b : Block} (h : c.block? id = some b) : b.id = id := by
  simpa using List.find?_some h

theorem mem_of_block? {b : Block} (h : c.block? id = some b) : b ∈ c.blocks :=
  List.mem_of_find?_eq_some h

theorem block?_of_mem (asc : c.blocks.Pairwise fun a b => a.id < b.id) {b : Block}
    (hb : b ∈ c.blocks) : c.block? b.id = some b := by
  unfold block?
  induction hl : c.blocks generalizing c with
  | nil => simp [hl] at hb
  | cons a rest ih =>
    rw [hl] at asc hb
    obtain ⟨hlt, hasc⟩ := List.pairwise_cons.1 asc
    rcases List.mem_cons.1 hb with rfl | hm
    · simp
    · have hne : a.id ≠ b.id := Nat.ne_of_lt (hlt b hm)
      rw [List.find?_cons_of_neg (by simpa using hne)]
      exact ih (c := { c with blocks := rest }) hasc hm rfl

theorem slot?_eq {b : Block} (h : c.block? id = some b) (index : Nat) :
    c.slot? ⟨id, index⟩ = b.slots[index]? := by
  simp [slot?, h]

theorem exists_of_slot? {slot : SlotId} {s : Slot BlockId} (h : c.slot? slot = some s) :
    ∃ b, c.block? slot.host = some b ∧ b.slots[slot.index]? = some s :=
  Option.bind_eq_some_iff.1 h

theorem mem_listed_slot {b : Block} (h : c.block? id = some b) {index : Nat} :
    x ∈ c.listed (.slot ⟨id, index⟩) ↔ ∃ s, b.slots[index]? = some s ∧ x ∈ s.children := by
  rw [listed, slot?_eq h]
  cases b.slots[index]? <;> simp

theorem mem_listed_chain {b : Block} (h : c.block? id = some b) :
    x ∈ c.listed (.chain id) ↔ x ∈ b.chain := by
  simp [listed, h]

theorem exists_host_of_mem_listed {o : Owner} {host : BlockId} (h : x ∈ c.listed o)
    (ho : o.host? = some host) : ∃ b, c.block? host = some b ∧ x ∈ b.owned := by
  cases o with
  | free => cases ho
  | slot slot =>
    obtain rfl : slot.host = host := by simpa [Owner.host?] using ho
    obtain ⟨s, hs, hx⟩ : ∃ s, c.slot? slot = some s ∧ x ∈ s.children := by
      unfold listed at h
      cases hs : c.slot? slot with
      | none => simp [hs] at h
      | some s => exact ⟨s, rfl, by simpa [hs] using h⟩
    obtain ⟨b, hb, hi⟩ := exists_of_slot? hs
    exact ⟨b, hb, Block.mem_owned.2 (Or.inl ⟨s, List.mem_of_getElem? hi, hx⟩)⟩
  | chain head =>
    obtain rfl : head = host := by simpa [Owner.host?] using ho
    unfold listed at h
    cases hb : c.block? head with
    | none => simp [hb] at h
    | some b => exact ⟨b, rfl, Block.mem_owned.2 (Or.inr (by simpa [hb] using h))⟩

theorem exists_listed_of_mem_owned {b : Block} (hb : c.block? id = some b) (hx : x ∈ b.owned) :
    ∃ o, o.host? = some id ∧ x ∈ c.listed o := by
  rcases Block.mem_owned.1 hx with ⟨s, hs, hx⟩ | hx
  · obtain ⟨i, hi⟩ := List.getElem?_of_mem hs
    exact ⟨.slot ⟨id, i⟩, rfl, (mem_listed_slot hb).2 ⟨s, hi, hx⟩⟩
  · exact ⟨.chain id, rfl, (mem_listed_chain hb).2 hx⟩

/-! ### Look-ups after the elementary changes -/

theorem block?_modify {f : Block → Block} (hf : ∀ b, (f b).id = b.id) (id x : BlockId) :
    (c.modify id f).block? x = (c.block? x).map fun b => if b.id = id then f b else b := by
  have hid : ∀ b : Block, (if b.id = id then f b else b).id = b.id := by
    intro b
    split <;> simp [hf]
  have hp : ((fun b : Block => b.id == x) ∘ fun b => if b.id = id then f b else b) =
      fun b => b.id == x := by
    funext b
    simp [hid]
  simp only [block?, modify, beq_iff_eq, List.find?_map, hp]

theorem isSome_block?_modify {f : Block → Block} (hf : ∀ b, (f b).id = b.id) (id x : BlockId) :
    ((c.modify id f).block? x).isSome = (c.block? x).isSome := by
  rw [block?_modify hf, Option.isSome_map]

theorem block?_modify_self {f : Block → Block} (hf : ∀ b, (f b).id = b.id) (id : BlockId) :
    (c.modify id f).block? id = (c.block? id).map f := by
  rw [block?_modify hf]
  cases h : c.block? id with
  | none => rfl
  | some b => simp [id_of_block? h]

theorem block?_modify_of_ne {f : Block → Block} (hf : ∀ b, (f b).id = b.id) (hx : x ≠ id) :
    (c.modify id f).block? x = c.block? x := by
  rw [block?_modify hf]
  cases h : c.block? x with
  | none => rfl
  | some b => simp [id_of_block? h, hx]

theorem modifySlot_eq (c : Canvas) (slot : SlotId) (f : Content BlockId → Content BlockId) :
    c.modifySlot slot f = c.modify slot.host (Block.reslot slot.index f) :=
  rfl

theorem exists_mem_of_ids {blocks blocks' : List Block}
    (hids : blocks'.map Block.id = blocks.map Block.id) {b : Block} (hb : b ∈ blocks') :
    ∃ a ∈ blocks, a.id = b.id := by
  have hi : b.id ∈ blocks.map Block.id := hids ▸ List.mem_map_of_mem hb
  exact List.mem_map.1 hi

theorem ascending_of_ids {blocks blocks' : List Block}
    (hids : blocks'.map Block.id = blocks.map Block.id) (h : blocks.Pairwise fun a b => a.id < b.id) :
    blocks'.Pairwise fun a b => a.id < b.id := by
  rw [← List.pairwise_map (f := Block.id) (R := (· < ·)), hids, List.pairwise_map]
  exact h

theorem ascending_map {f : Block → Block} (hf : ∀ b, (f b).id = b.id) {blocks : List Block}
    (h : blocks.Pairwise fun a b => a.id < b.id) :
    (blocks.map f).Pairwise fun a b => a.id < b.id := by
  rw [List.pairwise_map]
  simpa [hf] using h

theorem ids_modify {f : Block → Block} (hf : ∀ b, (f b).id = b.id) (id : BlockId) :
    (c.modify id f).blocks.map Block.id = c.blocks.map Block.id := by
  simp only [modify, List.map_map]
  refine List.map_congr_left fun b _ => ?_
  simp only [Function.comp]
  split <;> simp [hf]

end Canvas
end BlockCanvas
