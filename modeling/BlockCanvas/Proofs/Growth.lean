import BlockCanvas.Proofs.Edits

/-!
Growing a canvas below one block. Only that block and blocks that were not there before change, so the
trees of all others stay, and the tree of the block itself changes where the block does.
-/
namespace BlockCanvas

namespace Content
variable {β γ : Type}

theorem filterMap_some (content : Content β) : content.filterMap some = content := by
  cases content with
  | value child literal => cases child <;> rfl
  | body entries =>
    have he : Entry.filterMap (some : β → Option β) = some := by
      funext e
      cases e <;> rfl
    simp [filterMap, he]

def graft (b : β) : Content β → Content β
  | .value _ literal => .value (some b) literal
  | .body entries => .body (entries ++ [.block b])

theorem shape_graft (b : β) (content : Content β) : (content.graft b).shape = content.shape := by
  cases content <;> rfl

theorem filterMap_graft {f : β → Option γ} {b : β} {g : γ} (h : f b = some g) (content : Content β) :
    (content.graft b).filterMap f = (content.filterMap f).graft g := by
  cases content with
  | value child literal => simp [graft, filterMap, h]
  | body entries => simp [graft, filterMap, h, List.filterMap_append]

theorem link_eq_graft (id : BlockId) : Content.link id = Content.graft id := by
  funext content
  cases content <;> rfl

end Content

namespace Slot

theorem filterMap_some {β : Type} (s : Slot β) : s.filterMap some = s := by
  simp only [filterMap, Content.filterMap_some]

end Slot

namespace Tree

def reslot (index : Nat) (g : Content Tree → Content Tree) : Tree → Tree
  | .node id face slots chain =>
    .node id face (slots.modify index fun s => { s with content := g s.content }) chain

def rechain (g : List Tree → List Tree) : Tree → Tree
  | .node id face slots chain => .node id face slots (g chain)

def reface (g : Face → Face) : Tree → Tree
  | .node id face slots chain => .node id (g face) slots chain

end Tree

namespace Block

structure Fresh (kind : Kind) (b : Block) : Prop where
  face : b.toFace = Template.face kind
  slots : b.slots = Template.slots kind
  chain : b.chain = []

end Block

def Event.evicted? : Event → Option BlockId
  | .nested _ _ evicted => evicted
  | _ => none

namespace Canvas
variable {c c' c'' : Canvas} {id x : BlockId} {t : Tree}

/-! ### Trees and blocks -/

theorem exists_block_of_tree? (h : c.Linked none) (ht : c.tree? x = some t) :
    ∃ b, c.block? x = some b ∧ t = .node x b.toFace (b.slots.map (Slot.filterMap c.tree?))
      (b.chain.filterMap c.tree?) := by
  rw [tree?_eq h] at ht
  obtain ⟨b, hb, rfl⟩ := Option.map_eq_some_iff.1 ht
  exact ⟨b, hb, by rw [id_of_block? hb]⟩

theorem exists_tree?_of_owned (h : c.Linked none) {b : Block} (hb : c.block? x = some b)
    {k : BlockId} (hk : k ∈ b.owned) : ∃ t, c.tree? k = some t ∧ t.id = k := by
  obtain ⟨a, ha⟩ := h.exists_block_of_mem_owned hb hk
  obtain ⟨t, ht⟩ := exists_tree? h ha
  exact ⟨t, ht, id_of_tree? h ht⟩

theorem block_of_tree? (h : c.Linked none) {b : Block} (hb : c.block? x = some b)
    (ht : c.tree? x = some t) :
    b.toFace = t.face ∧ b.slots = t.slots.map (Slot.filterMap fun k => some k.id) ∧
      b.chain = t.chain.map Tree.id := by
  obtain ⟨a, ha, rfl⟩ := exists_block_of_tree? h ht
  obtain rfl := Option.some.inj (hb.symm.trans ha)
  have hid : ∀ k ∈ b.owned, (c.tree? k).bind (fun t => some t.id) = some k := by
    intro k hk
    obtain ⟨t, ht, rfl⟩ := exists_tree?_of_owned h hb hk
    simp [ht]
  refine ⟨rfl, ?_, ?_⟩
  · simp only [Tree.slots, List.map_map]
    refine ((List.map_congr_left fun s hs => ?_).trans (List.map_id b.slots)).symm
    simp only [Function.comp, Slot.filterMap_filterMap]
    refine (Slot.filterMap_congr fun k hk => ?_).trans (Slot.filterMap_some s)
    exact hid k (Block.mem_owned.2 (Or.inl ⟨s, hs, hk⟩))
  · simp only [Tree.chain, ← List.filterMap_eq_map, List.filterMap_filterMap]
    refine ((List.filterMap_congr fun k hk => ?_).trans List.filterMap_some).symm
    exact hid k (Block.mem_owned.2 (Or.inr hk))

theorem tree?_congr (h : c.Linked none) (h' : c'.Linked none) (ht : c.tree? x = some t)
    (hsame : ∀ y ∈ t.ids, c'.block? y = c.block? y) : c'.tree? x = some t := by
  induction t using Tree.induction generalizing x with
  | step t ih =>
    obtain ⟨b, hb, he⟩ := exists_block_of_tree? h ht
    have hb' : c'.block? x = some b := by
      rw [hsame x (by rw [Tree.ids_eq, id_of_tree? h ht]; exact List.mem_cons_self), hb]
    have hdown : ∀ k ∈ b.owned, c'.tree? k = c.tree? k := by
      intro k hk
      obtain ⟨tk, htk, -⟩ := exists_tree?_of_owned h hb hk
      have hm : tk ∈ t.children := by
        rw [children_of_tree? h hb ht]
        exact List.mem_filterMap.2 ⟨k, hk, htk⟩
      rw [htk]
      refine ih tk hm htk fun y hy => hsame y ?_
      rw [Tree.ids_eq]
      exact List.mem_cons_of_mem _ (List.mem_flatMap.2 ⟨tk, hm, hy⟩)
    rw [tree?_eq h', hb', Option.map_some, he, id_of_block? hb,
      List.map_congr_left fun s hs => Slot.filterMap_congr fun k hk =>
        hdown k (Block.mem_owned.2 (Or.inl ⟨s, hs, hk⟩)),
      List.filterMap_congr fun k hk => hdown k (Block.mem_owned.2 (Or.inr hk))]

theorem exists_block_of_mem_ids (h : c.Linked none) (ht : c.tree? x = some t) {y : BlockId}
    (hy : y ∈ t.ids) : ∃ b, c.block? y = some b := by
  obtain ⟨a, ha, -⟩ := exists_block_of_tree? h ht
  exact exists_block_of_within ha ((mem_ids_of_tree? h ht).1 hy)

/-! ### Growth -/

/-- No block had to make room since the events were last taken. -/
def Quiet (c : Canvas) : Prop :=
  ∀ e ∈ c.events, e.evicted? = none

theorem Quiet.append (h : c.Quiet) {more : List Event} (hmore : ∀ e ∈ more, e.evicted? = none)
    (he : c'.events = c.events ++ more) : c'.Quiet := by
  rw [Quiet, he]
  exact List.forall_mem_append.2 ⟨h, hmore⟩

structure Growth (c c' : Canvas) (id : BlockId) : Prop where
  sound : c'.Sound none
  others : ∀ y, y < c.nextId → y ≠ id → c'.block? y = c.block? y
  position : (c'.block? id).map Block.position = (c.block? id).map Block.position
  roots : c'.roots = c.roots
  nextId : c.nextId ≤ c'.nextId
  bounds : c'.bounds = c.bounds
  discardZone : c'.discardZone = c.discardZone
  quiet : c.Quiet → c'.Quiet

namespace Growth

theorem refl (h : c.Sound none) (id : BlockId) : c.Growth c id :=
  ⟨h, fun _ _ _ => rfl, rfl, rfl, Nat.le_refl _, rfl, rfl, fun hq => hq⟩

/-- What is grown below a block may grow on, below that block or below one that was not there before. -/
theorem comp {k : BlockId} (h : c.Growth c' id) (h' : c'.Growth c'' k)
    (hk : ∀ y < c.nextId, y ≠ id → y ≠ k)
    (hposition : (c''.block? id).map Block.position = (c'.block? id).map Block.position) :
    c.Growth c'' id where
  sound := h'.sound
  others y hy hne := (h'.others y (Nat.lt_of_lt_of_le hy h.nextId) (hk y hy hne)).trans (h.others y hy hne)
  position := hposition.trans h.position
  roots := h'.roots.trans h.roots
  nextId := Nat.le_trans h.nextId h'.nextId
  bounds := h'.bounds.trans h.bounds
  discardZone := h'.discardZone.trans h.discardZone
  quiet hq := h'.quiet (h.quiet hq)

theorem trans (h : c.Growth c' id) (h' : c'.Growth c'' id) : c.Growth c'' id :=
  h.comp h' (fun _ _ hne => hne) h'.position

theorem below_fresh (h : c.Growth c' id) (hid : id < c.nextId) (hn : c.nextId < c'.nextId)
    (h' : c'.Growth c'' c.nextId) : c.Growth c'' id :=
  h.comp h' (fun _ hy _ => Nat.ne_of_lt hy)
    (congrArg _ (h'.others id (Nat.lt_trans hid hn) (Nat.ne_of_lt hid)))

theorem lt_nextId (h : c.Linked none) {b : Block} (hb : c.block? x = some b) : x < c.nextId :=
  id_of_block? hb ▸ h.fresh b (mem_of_block? hb)

theorem tree?_of_owned (hc : c.Linked none) (h : c.Growth c' id) {b : Block}
    (hb : c.block? id = some b) {k : BlockId} (hk : k ∈ b.owned) : c'.tree? k = c.tree? k := by
  obtain ⟨a, ha⟩ := hc.exists_block_of_mem_owned hb hk
  obtain ⟨t, ht⟩ := exists_tree? hc ha
  rw [ht]
  refine tree?_congr hc h.sound.toLinked ht fun y hy => ?_
  have hw : c.Within y k := (mem_ids_of_tree? hc ht).1 hy
  obtain ⟨b', hb'⟩ := exists_block_of_within ha hw
  refine h.others y (lt_nextId hc hb') ?_
  rintro rfl
  exact hc.not_cyclic y (Relation.TransGen.tail' hw (hc.above_of_mem_owned hb hk))

theorem slots_eq (hc : c.Linked none) (h : c.Growth c' id) {b : Block} (hb : c.block? id = some b) :
    b.slots.map (Slot.filterMap c'.tree?) = b.slots.map (Slot.filterMap c.tree?) :=
  List.map_congr_left fun s hs => Slot.filterMap_congr fun _ hk =>
    tree?_of_owned hc h hb (Block.mem_owned.2 (Or.inl ⟨s, hs, hk⟩))

theorem chain_eq (hc : c.Linked none) (h : c.Growth c' id) {b : Block} (hb : c.block? id = some b) :
    b.chain.filterMap c'.tree? = b.chain.filterMap c.tree? :=
  List.filterMap_congr fun _ hk => tree?_of_owned hc h hb (Block.mem_owned.2 (Or.inr hk))

theorem tree?_reslot (hc : c.Linked none) (h : c.Growth c' id) {b : Block} {index : Nat}
    {f : Content BlockId → Content BlockId} {g : Content Tree → Content Tree}
    (hb : c.block? id = some b) (hb' : c'.block? id = some (b.reslot index f))
    (hcontent : ∀ s, b.slots[index]? = some s →
      (f s.content).filterMap c'.tree? = g (s.content.filterMap c'.tree?))
    (ht : c.tree? id = some t) : c'.tree? id = some (t.reslot index g) := by
  obtain ⟨a, ha, rfl⟩ := exists_block_of_tree? hc ht
  obtain rfl := Option.some.inj (hb.symm.trans ha)
  have hchain : (b.reslot index f).chain.filterMap c'.tree? = b.chain.filterMap c.tree? :=
    chain_eq (b := b) hc h hb
  rw [tree?_eq h.sound.toLinked, hb', Option.map_some, id_of_block? hb', hchain, ← slots_eq hc h hb,
    Tree.reslot]
  congr 2
  refine List.ext_getElem? fun i => ?_
  simp only [Block.reslot, List.getElem?_map, List.getElem?_modify]
  cases hs : b.slots[i]? with
  | none => rfl
  | some s =>
    by_cases hi : index = i
    · subst hi
      simp [Slot.filterMap, hcontent s hs]
    · simp [hi]

theorem modify {f : Block → Block} {event : Event} (hf : ∀ b, (f b).id = b.id)
    (hp : ∀ b, (f b).position = b.position) (he : event.evicted? = none)
    (hs : ((c.modify id f).commit event).Sound none) :
    c.Growth ((c.modify id f).commit event) id where
  sound := hs
  others y _ hne := block?_modify_of_ne hf hne
  position := by
    refine (congrArg _ (block?_modify_self hf id)).trans ?_
    rw [Option.map_map]
    congr 1
    exact funext hp
  roots := rfl
  nextId := Nat.le_refl _
  bounds := rfl
  discardZone := rfl
  quiet hq := hq.append (List.forall_mem_singleton.2 he) rfl

end Growth

/-! ### A fresh block goes in -/

theorem block?_detach_of_free (hf : c.owner? id = some .free) (x : BlockId) :
    (c.detach id).block? x = c.block? x := by
  let f : Block → Block := fun b => { b with owner := .free }
  obtain ⟨b, hb, ho⟩ := Linked.exists_block_of_owner? hf
  have heq : c.detach id =
      { c with roots := c.roots.filter fun r => r != id }.modify id f := by
    rw [detach, hb, Option.map_some, ho]
  rw [heq]
  by_cases hx : x = id
  · subst hx
    rw [block?_modify_self (f := f) fun _ => rfl]
    have hself : f b = b := by
      cases b
      simp only [f, ← ho]
    refine (congrArg (Option.map f) hb).trans ?_
    rw [hb, Option.map_some, hself]
  · exact block?_modify_of_ne (f := f) (fun _ => rfl) hx

theorem roots_detach_of_free (hf : c.owner? id = some .free) :
    (c.detach id).roots = c.roots.filter (· != id) := by
  obtain ⟨b, hb, ho⟩ := Linked.exists_block_of_owner? hf
  rw [detach, hb, Option.map_some, ho]
  rfl

theorem roots_filter_spawn (h : c.Linked none) :
    (c.roots ++ [c.nextId]).filter (· != c.nextId) = c.roots := by
  have hnot : c.nextId ∉ c.roots := by
    intro hm
    obtain ⟨b, hb, -⟩ := Linked.exists_block_of_owner? (h.owner?_of_mem_listed (o := .free) hm)
    simp [h.block?_nextId] at hb
  simp [List.filter_append, List.filter_bne_eq_self_of_not_mem hnot]

theorem occupant?_of_children_nil {slot : SlotId} {s : Slot BlockId} (hs : c.slot? slot = some s)
    (hroom : s.shape = .value → s.children = []) : c.occupant? id slot = none := by
  cases ho : c.occupant? id slot with
  | none => rfl
  | some child =>
    obtain ⟨hv, hc⟩ := occupant?_eq_some hs ho
    simp [hroom hv] at hc

section Moved
variable {q : Canvas} {kind : Kind} {p : Point Float} {head : BlockId} {host : Block}
variable (h : c.Sound none) (hb : c.block? head = some host)
variable (hblocks : q.blocks = (c.spawn kind p).blocks)
include h hblocks

theorem owner?_spawned : q.owner? c.nextId = some .free := by
  rw [owner?, block?, hblocks]
  exact (owner?_spawn h.toLinked kind p c.nextId).trans (if_pos rfl)

include hb

theorem growth_of_moved (hroots : q.roots = c.roots ++ [c.nextId]) (hnext : q.nextId = c.nextId + 1)
    (hbounds : q.bounds = c.bounds) (hzone : q.discardZone = c.discardZone)
    (hevents : q.events = c.events ++ [.created c.nextId]) {g f : Block → Block}
    (hg : ∀ b, (g b).id = b.id ∧ (g b).position = b.position) (hf : ∀ b, (f b).id = b.id)
    {event : Event} (he : event.evicted? = none) {c₁ : Canvas}
    (heq : c₁ = (((q.detach c.nextId).modify head g).modify c.nextId f).commit event)
    (hs : c₁.Sound none) :
    c.Growth c₁ head ∧ c₁.nextId = c.nextId + 1 ∧
      c₁.block? c.nextId = some (f (c.newborn kind p)) ∧ c₁.block? head = some (g host) := by
  have hlt := Growth.lt_nextId h.toLinked hb
  have hq : ∀ y, q.block? y = if y = c.nextId then some (c.newborn kind p) else c.block? y := by
    intro y
    rw [block?, hblocks]
    exact block?_spawn h.toLinked kind p y
  have hfree := owner?_spawned h hblocks
  have hblock : ∀ y, c₁.block? y =
      (((q.detach c.nextId).modify head g).modify c.nextId f).block? y := fun _ => heq ▸ rfl
  -- taking the fresh block out of the roots changes no block, so the host shows its own change only
  have hhost : c₁.block? head = some (g host) := by
    rw [hblock, block?_modify_of_ne hf (Nat.ne_of_lt hlt), block?_modify_self fun b => (hg b).1,
      block?_detach_of_free hfree, hq, if_neg (Nat.ne_of_lt hlt), hb, Option.map_some]
  have hn : c₁.nextId = c.nextId + 1 := by
    subst heq
    exact (nextId_detach q c.nextId).trans hnext
  have hset := setting_detach q c.nextId
  simp only [setting, Prod.mk.injEq] at hset
  refine ⟨⟨hs, fun y hy hne => ?_, ?_, ?_, hn ▸ Nat.le_succ _, ?_, ?_, fun hq' => ?_⟩, hn, ?_, hhost⟩
  · rw [hblock, block?_modify_of_ne hf (Nat.ne_of_lt hy), block?_modify_of_ne (fun b => (hg b).1) hne,
      block?_detach_of_free hfree, hq, if_neg (Nat.ne_of_lt hy)]
  · rw [hhost, hb, Option.map_some, Option.map_some, (hg host).2]
  · subst heq
    exact (roots_detach_of_free hfree).trans (hroots ▸ roots_filter_spawn h.toLinked)
  · subst heq
    exact hset.2.2.1.trans hbounds
  · subst heq
    exact hset.2.2.2.trans hzone
  · have hq₁ := hq'.append (List.forall_mem_singleton.2 rfl) (hset.2.1.trans hevents)
    subst heq
    exact hq₁.append (List.forall_mem_singleton.2 he) rfl
  · rw [hblock, block?_modify_self hf, block?_modify_of_ne (fun b => (hg b).1) (Nat.ne_of_gt hlt),
      block?_detach_of_free hfree, hq, if_pos rfl, Option.map_some]

end Moved

theorem exists_instantiateInto (h : c.Sound none) (slot : SlotId) {host : Block} {kind : Kind}
    {s : Slot BlockId} (hb : c.block? slot.host = some host) (hs : host.slots[slot.index]? = some s)
    (hfits : canNest (.slot host.kind s.shape) (.block kind) = true)
    (hroom : s.shape = .value → s.children = []) :
    ∃ c₁ k, c.instantiateInto kind slot = (c₁, .ok (c.nextId, none)) ∧ c.Growth c₁ slot.host ∧
      c₁.nextId = c.nextId + 1 ∧ c₁.block? c.nextId = some k ∧ k.Fresh kind ∧
      c₁.block? slot.host = some (host.reslot slot.index (Content.link c.nextId)) := by
  have hslot : c.slot? slot = some s := by simpa [slot?, hb] using hs
  have hkind : c.kind? slot.host = some host.kind := by rw [kind?, hb, Option.map_some]
  have hplace := place_eq_ok_iff.2 ⟨host.kind, s, hkind, hslot, rfl⟩
  let q := c.hatched kind (c.standing slot.host)
  have hvacant : q.occupant? c.nextId slot = none := by
    refine occupant?_of_children_nil (s := s) ?_ hroom
    have hq : q.block? slot.host = c.block? slot.host :=
      (block?_spawn h.toLinked kind _ slot.host).trans
        (if_neg (Nat.ne_of_lt (Growth.lt_nextId h.toLinked hb)))
    rw [slot?, hq, ← slot?, hslot]
  -- the slot is empty, so nothing has to make room
  have hroomy : q.roomy c.nextId slot = q := by rw [roomy, hvacant]
  have hattach := attach_of_ok (checkAttach_hatched h hplace hfits (c.standing slot.host))
  have heq : c.instantiateInto kind slot =
      (((q.detach c.nextId).link c.nextId slot).commit (.nested c.nextId slot none),
        .ok (c.nextId, none)) := by
    rw [instantiateInto_eq hplace hfits, hattach]
    simp only [hvacant, hroomy, q]
  have hstep := h.instantiateInto kind slot
  rw [heq] at hstep
  obtain ⟨hgrow, hnext, hnew, hhost⟩ := growth_of_moved (q := q)
    (g := Block.reslot slot.index (Content.link c.nextId))
    (f := fun b => { b with owner := .slot slot }) h hb rfl rfl rfl rfl rfl rfl
    (fun _ => ⟨rfl, rfl⟩) (fun _ => rfl) rfl rfl hstep.of_ok.1
  exact ⟨_, _, heq, hgrow, hnext, hnew, ⟨rfl, rfl, rfl⟩, hhost⟩

theorem exists_attachConnector (h : c.Sound none) {head : BlockId} {host : Block} {kind : Kind}
    (hb : c.block? head = some host) (hif : host.kind = .ifBranch) (hconn : kind.isConnector = true)
    (hone : kind = .elseBranch → ∀ k ∈ host.chain, c.isElse k = false) (p : Point Float) :
    ∃ c₁ k, (c.instantiate kind p).1.attachConnector c.nextId head = (c₁, .ok ()) ∧
      c.Growth c₁ head ∧ c₁.nextId = c.nextId + 1 ∧ c₁.block? c.nextId = some k ∧ k.Fresh kind ∧
      c₁.block? head = some { host with chain := c₁.elseLast (host.chain ++ [c.nextId]) } := by
  have hcheck : c.checkConnector kind none head = .ok () :=
    checkConnector_eq_ok_iff.2 ⟨host, hb, hif, by simp, fun he k hk _ => hone he k hk⟩
  let q := (c.instantiate kind p).1
  have hqk : q.kind? c.nextId = some kind := by
    rw [kind?, block?_instantiate h.toLinked, if_pos rfl, Option.map_some, newborn,
      Template.kind_face]
  let g : Block → Block := fun b =>
    { b with chain := (q.detach c.nextId).elseLast (b.chain ++ [c.nextId]) }
  let f : Block → Block := fun b => { b with owner := .chain head }
  let c₁ := (((q.detach c.nextId).modify head g).modify c.nextId f).commit (.connected c.nextId head)
  have heq : q.attachConnector c.nextId head = (c₁, .ok ()) :=
    attachConnector_of_ok hqk hconn (checkConnector_instantiate h hcheck p)
  have hstep := (sound_instantiate h kind p).attachConnector c.nextId head
  rw [heq] at hstep
  obtain ⟨hgrow, hnext, hnew, hhost⟩ := growth_of_moved (q := q) (g := g) (f := f) h hb rfl rfl rfl rfl
    rfl rfl (fun _ => ⟨rfl, rfl⟩) (fun _ => rfl) rfl rfl hstep.of_ok.1
  -- sorting asks for kinds only, and linking changes none
  have hkinds : c₁.kind? = (q.detach c.nextId).kind? :=
    (kind?_modify (f := f) (fun _ => rfl) (fun _ => rfl) c.nextId).trans
      (kind?_modify (f := g) (fun _ => rfl) (fun _ => rfl) head)
  have hsort : c₁.elseLast = (q.detach c.nextId).elseLast := by
    funext ks
    have he : c₁.isElse = (q.detach c.nextId).isElse := by
      funext k
      rw [isElse, isElse, hkinds]
    simp only [elseLast, he]
  refine ⟨c₁, _, heq, hgrow, hnext, hnew, ⟨rfl, rfl, rfl⟩, ?_⟩
  rw [hsort]
  exact hhost

end Canvas
end BlockCanvas
