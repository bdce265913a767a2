import BlockCanvas.Proofs.Ledger
import BlockCanvas.Proofs.Register

/-!
Moving blocks loses nothing and doubles nothing. What a block keeps while others are moved is the block
apart from those: its face, its literals, its typed lines and, in their order among these, the children
that stay. Each elementary change leaves that as it was (`Undisturbed`), and so do the edits made of
them; which ids are live after an edit is read off the same changes.
-/
namespace BlockCanvas

namespace Entry
variable {β : Type}

def line? : Entry β → Option String
  | .block _ => none
  | .line text => some text

end Entry

def Slot.lines {β : Type} (s : Slot β) : List String :=
  s.entries.filterMap Entry.line?

namespace Content
variable {moved : List BlockId} {id : BlockId} {content : Content BlockId}

def apart (moved : List BlockId) : Content BlockId → Content BlockId
  | .value child literal => .value (child.filter (· ∉ moved)) literal
  | .body entries => .body (entries.filter fun e => e.block?.all (· ∉ moved))

theorem apart_unlink (hm : id ∈ moved) (content : Content BlockId) :
    (content.unlink id).apart moved = content.apart moved := by
  cases content with
  | value child literal =>
    cases child with
    | none => rfl
    | some k => by_cases hk : k = id <;> simp [unlink, apart, hk, hm, Option.filter]
  | body entries =>
    simp only [unlink, apart, List.filter_filter, body.injEq]
    refine List.filter_congr fun e _ => ?_
    cases e with
    | line text => rfl
    | block k => by_cases hk : k = id <;> simp [hk, hm]

theorem apart_link (hm : id ∈ moved) (hroom : content.shape = .value → content.children = []) :
    (content.link id).apart moved = content.apart moved := by
  cases content with
  | value child literal =>
    cases child with
    | none => simp [link, apart, hm, Option.filter]
    | some k => simp [shape, children] at hroom
  | body entries => simp [link, apart, hm]

theorem children_apart (moved : List BlockId) (content : Content BlockId) :
    (content.apart moved).children = content.children.filter (· ∉ moved) := by
  cases content with
  | value child literal =>
    cases child with
    | none => rfl
    | some k => by_cases hk : k ∈ moved <;> simp [apart, children, hk, Option.filter]
  | body entries =>
    simp only [apart, children, List.filterMap_filter, List.filter_filterMap]
    refine List.filterMap_congr fun e _ => ?_
    cases e with
    | line text => rfl
    | block k => by_cases hk : k ∈ moved <;> simp [hk, Option.filter]

end Content

namespace Slot
variable {moved : List BlockId}

def apart (moved : List BlockId) (s : Slot BlockId) : Slot BlockId :=
  { s with content := s.content.apart moved }

theorem literal?_apart (moved : List BlockId) (s : Slot BlockId) :
    (s.apart moved).literal? = s.literal? := by
  obtain ⟨name, content⟩ := s
  cases content <;> rfl

theorem lines_apart (moved : List BlockId) (s : Slot BlockId) : (s.apart moved).lines = s.lines := by
  obtain ⟨name, content⟩ := s
  cases content with
  | value child literal => rfl
  | body entries =>
    simp only [lines, Slot.entries, apart, Content.apart, List.filterMap_filter]
    refine List.filterMap_congr fun e _ => ?_
    cases e with
    | line text => rfl
    | block k => split <;> rfl

end Slot

namespace Block
variable {moved : List BlockId} {id : BlockId} {b b' : Block}

def apart (moved : List BlockId) (b : Block) : Face × List (Slot BlockId) × List BlockId :=
  (b.toFace, b.slots.map (Slot.apart moved), b.chain.filter (· ∉ moved))

theorem apart_without (hm : id ∈ moved) (b : Block) : (b.without id).apart moved = b.apart moved := by
  have hslot : Slot.apart moved ∘ Slot.without id = Slot.apart moved := by
    funext s
    simp only [Function.comp, Slot.apart, Slot.without, Content.apart_unlink hm]
  have hchain : (b.chain.filter (· != id)).filter (· ∉ moved) = b.chain.filter (· ∉ moved) := by
    rw [List.filter_filter]
    refine List.filter_congr fun k _ => ?_
    by_cases hk : k = id <;> simp [hk, hm]
  simp only [apart, without, strip, List.map_map, hslot, hchain]

theorem apart_reslot_link {index : Nat} {s : Slot BlockId} (hm : id ∈ moved)
    (hs : b.slots[index]? = some s) (hroom : s.shape = .value → s.children = []) :
    (b.reslot index (Content.link id)).apart moved = b.apart moved := by
  have hslots : (b.slots.modify index fun s => { s with content := s.content.link id }).map
      (Slot.apart moved) = b.slots.map (Slot.apart moved) := by
    refine List.ext_getElem? fun i => ?_
    simp only [List.getElem?_map, List.getElem?_modify]
    by_cases hi : index = i
    · subst hi
      simp [hs, Slot.apart, Content.apart_link hm hroom]
    · cases b.slots[i]? <;> simp [hi]
  simp only [apart, reslot, hslots]

structure Kept (moved : List BlockId) (b b' : Block) : Prop where
  face : b'.toFace = b.toFace
  literals : b'.slots.map Slot.literal? = b.slots.map Slot.literal?
  lines : b'.slots.map Slot.lines = b.slots.map Slot.lines
  children : b'.slots.map (fun s => s.children.filter (· ∉ moved)) =
    b.slots.map (fun s => s.children.filter (· ∉ moved))
  chain : b'.chain.filter (· ∉ moved) = b.chain.filter (· ∉ moved)

theorem kept_of_apart (h : b'.apart moved = b.apart moved) : b.Kept moved b' := by
  simp only [apart, Prod.mk.injEq] at h
  obtain ⟨hface, hslots, hchain⟩ := h
  have hread : ∀ {β : Type} (f : Slot BlockId → β), b'.slots.map (f ∘ Slot.apart moved) =
      b.slots.map (f ∘ Slot.apart moved) := by
    intro β f
    rw [← List.map_map, hslots, List.map_map]
  refine ⟨hface, ?literals, ?lines, ?children, hchain⟩
  case literals => simpa only [Function.comp_def, Slot.literal?_apart] using hread Slot.literal?
  case lines => simpa only [Function.comp_def, Slot.lines_apart] using hread Slot.lines
  case children =>
    simpa only [Function.comp_def, Slot.children, Slot.apart, Content.children_apart] using
      hread Slot.children

end Block

namespace Canvas
variable {c c' c'' : Canvas} {id x : BlockId} {slot : SlotId} {moved : List BlockId}

structure Undisturbed (moved : List BlockId) (c c' : Canvas) : Prop where
  blocks : ∀ {x b}, c.block? x = some b →
    ∃ b', c'.block? x = some b' ∧ b'.apart moved = b.apart moved
  roots : c'.roots.filter (· ∉ moved) = c.roots.filter (· ∉ moved)

namespace Undisturbed

theorem refl (moved : List BlockId) (c : Canvas) : c.Undisturbed moved c :=
  ⟨fun hb => ⟨_, hb, rfl⟩, rfl⟩

theorem trans (h : c.Undisturbed moved c') (h' : c'.Undisturbed moved c'') :
    c.Undisturbed moved c'' where
  blocks hb := by
    obtain ⟨b', hb', he⟩ := h.blocks hb
    obtain ⟨b'', hb'', he'⟩ := h'.blocks hb'
    exact ⟨b'', hb'', he'.trans he⟩
  roots := h'.roots.trans h.roots

theorem commit (h : c.Undisturbed moved c') (event : Event) : c.Undisturbed moved (c'.commit event) :=
  ⟨h.blocks, h.roots⟩

theorem modify {f : Block → Block} (hf : ∀ b, (f b).id = b.id)
    (hb : ∀ b, c.block? id = some b → (f b).apart moved = b.apart moved) :
    c.Undisturbed moved (c.modify id f) where
  blocks {x b} hx := by
    rw [block?_modify hf, hx]
    refine ⟨_, rfl, ?_⟩
    dsimp only
    split
    · rename_i he
      exact hb b (he ▸ (id_of_block? hx).symm ▸ hx)
    · rfl
  roots := rfl

theorem detach (h : c.Linked none) {b : Block} (hb : c.block? id = some b) (hm : id ∈ moved) :
    c.Undisturbed moved (c.detach id) := by
  rw [detach_eq_without h hb]
  refine ⟨fun {x a} ha => ⟨a.without id, ?_, a.apart_without hm⟩, ?_⟩
  · rw [block?_without, ha, Option.map_some]
  · have hroots : (c.without id).roots = c.roots.filter (· != id) := rfl
    rw [hroots, List.filter_filter]
    refine List.filter_congr fun r _ => ?_
    by_cases hr : r = id <;> simp [hr, hm]

theorem makeFree (c : Canvas) (p : Point Float) (hm : id ∈ moved) :
    c.Undisturbed moved (c.makeFree id p) where
  blocks {x b} hb := by
    rw [block?_makeFree, hb]
    refine ⟨_, rfl, ?_⟩
    dsimp only
    split <;> rfl
  roots := by
    simp only [Canvas.makeFree]
    split
    · rfl
    · change (c.roots ++ [id]).filter (· ∉ moved) = c.roots.filter (· ∉ moved)
      simp [hm]

theorem link {s : Slot BlockId} (hs : c.slot? slot = some s) (hm : id ∈ moved)
    (hroom : s.shape = .value → s.children = []) : c.Undisturbed moved (c.link id slot) := by
  obtain ⟨host, hhost, hi⟩ := exists_of_slot? hs
  have hlink : c.Undisturbed moved (c.modifySlot slot (Content.link id)) := by
    refine .modify (f := Block.reslot slot.index (Content.link id)) (fun _ => rfl) fun b hb => ?_
    obtain rfl : host = b := Option.some.inj (hhost.symm.trans hb)
    exact Block.apart_reslot_link hm hi hroom
  exact hlink.trans (.modify (f := fun b => { b with owner := .slot slot }) (fun _ => rfl)
    fun _ _ => rfl)

theorem spawn (h : c.Linked none) (kind : Kind) (p : Point Float) (hm : c.nextId ∈ moved) :
    c.Undisturbed moved (c.spawn kind p) where
  blocks {x b} hb := by
    have hne : x ≠ c.nextId := by
      rintro rfl
      simp [h.block?_nextId] at hb
    exact ⟨b, by rw [block?_spawn h, if_neg hne, hb], rfl⟩
  roots := by
    change (c.roots ++ [c.nextId]).filter (· ∉ moved) = _
    simp [hm]

end Undisturbed

theorem filter_elseLast_append {ks : List BlockId}
    (hks : ks.Pairwise fun k _ => c.kind? k ≠ some .elseBranch) (hm : id ∈ moved) :
    (c.elseLast (ks ++ [id])).filter (· ∉ moved) = ks.filter (· ∉ moved) := by
  have hsorted : c.elseLast ks = ks := by
    clear hm
    induction ks with
    | nil => rfl
    | cons k ks ih =>
      obtain ⟨hk, hks⟩ := List.pairwise_cons.1 hks
      cases hek : c.isElse k with
      | false =>
        have := ih hks
        simp only [elseLast] at this ⊢
        simp [hek, this]
      | true =>
        have hnil : ks = [] := by
          refine List.eq_nil_iff_forall_not_mem.2 fun k' hk' => hk k' hk' ?_
          simpa [isElse] using hek
        simp [hnil, elseLast, hek]
  have hsplit : (c.elseLast (ks ++ [id])).filter (· ∉ moved) =
      (c.elseLast ks).filter (· ∉ moved) := by
    cases he : c.isElse id <;> simp [elseLast, List.filter_append, he, hm]
  rw [hsplit, hsorted]

/-! ### The edits that move blocks -/

theorem Sound.undisturbed_roomy (h : c.Sound none) (id : BlockId) (slot : SlotId)
    (hm : ∀ k, c.occupant? id slot = some k → k ∈ moved) :
    c.Undisturbed moved (c.roomy id slot) := by
  unfold Canvas.roomy
  cases ho : c.occupant? id slot with
  | none => exact .refl moved c
  | some child =>
    obtain ⟨b, hb, -⟩ := Linked.exists_block_of_owner? (owner?_of_occupant? h.toLinked ho)
    exact (Undisturbed.detach h.toLinked hb (hm child ho)).trans (.makeFree _ _ (hm child ho))

theorem Sound.undisturbed_attach (h : c.Sound none) {evicted : Option BlockId}
    (hok : c.attach id slot = (c', .ok evicted)) : c.Undisturbed (id :: evicted.toList) c' := by
  obtain ⟨hcheck, rfl, rfl⟩ := attach_eq_ok hok
  obtain ⟨kind, host, s, hk, -, hs, -, -⟩ := checkAttach_eq_ok_iff.1 hcheck
  have hr := h.roomy hs id
  obtain ⟨s', hs', hshape, hroom⟩ := hr.slot?
  obtain ⟨b, hb⟩ := hr.exists_block hk
  have hslot := (slot?_detach hr.sound.toLinked hb slot).trans (congrArg _ hs')
  have hsame : (s'.without id).shape = s.shape :=
    (Content.shape_unlink id s'.content).trans hshape
  refine ((h.undisturbed_roomy id slot fun k hk => by simp [hk]).trans ?_).commit _
  refine (Undisturbed.detach hr.sound.toLinked hb List.mem_cons_self).trans
    (.link hslot List.mem_cons_self fun hv => ?_)
  rw [Slot.children_without, List.filter_eq_nil_iff]
  simpa using hroom (hsame ▸ hv)

theorem Sound.undisturbed_instantiateInto (h : c.Sound none) {kind : Kind}
    {evicted : Option BlockId} (hok : c.instantiateInto kind slot = (c', .ok (id, evicted))) :
    c.Undisturbed (id :: evicted.toList) c' := by
  obtain ⟨rfl, hattach⟩ := instantiateInto_eq_ok hok
  have hmem : c.nextId ∈ c.nextId :: evicted.toList := List.mem_cons_self
  have hs := Undisturbed.spawn h.toLinked kind (c.standing slot.host) hmem
  have hhatched : c.Undisturbed (c.nextId :: evicted.toList)
      (c.hatched kind (c.standing slot.host)) := ⟨hs.blocks, hs.roots⟩
  exact hhatched.trans ((h.hatched kind _).undisturbed_attach hattach)

theorem Sound.undisturbed_detachToFree (h : c.Sound none) {p : Point Float}
    (hok : c.detachToFree id p = (c', .ok ())) : c.Undisturbed [id] c' := by
  obtain ⟨b, hb, -, rfl⟩ := detachToFree_eq_ok hok
  refine Undisturbed.commit ?_ _
  split
  · exact .modify (f := fun b => { b with position := p }) (fun _ => rfl) fun _ _ => rfl
  · exact (Undisturbed.detach h.toLinked hb List.mem_cons_self).trans
      (.makeFree _ _ List.mem_cons_self)

theorem Sound.undisturbed_attachConnector (h : c.Sound none) {head : BlockId}
    (hok : c.attachConnector id head = (c', .ok ())) : c.Undisturbed [id] c' := by
  obtain ⟨b, hb, -, -, rfl⟩ := attachConnector_eq_ok hok
  let g : Block → Block := fun b => { b with chain := (c.detach id).elseLast (b.chain ++ [id]) }
  have hchain : (c.detach id).Undisturbed [id] ((c.detach id).modify head g) := by
    refine .modify (f := g) (fun _ => rfl) fun a ha => ?_
    have helse := ((h.detach hb).typed a (mem_of_block? ha)).elseLast
    simp only [Block.apart, g, filter_elseLast_append helse List.mem_cons_self]
  refine Undisturbed.commit ((Undisturbed.detach h.toLinked hb List.mem_cons_self).trans ?_) _
  exact hchain.trans
    (.modify (f := fun b => { b with owner := .chain head }) (fun _ => rfl) fun _ _ => rfl)

/-! ### Live blocks -/

def ids (c : Canvas) : List BlockId :=
  c.blocks.map Block.id

theorem mem_ids_iff : x ∈ c.ids ↔ ∃ b, c.block? x = some b := by
  rw [← Option.isSome_iff_exists, block?, List.find?_isSome]
  simp [ids]

theorem ids_of_register (he : c'.register = c.register) : c'.ids = c.ids := by
  have hids := congrArg (List.map Prod.fst) (Prod.mk.inj he).1
  rw [List.map_map, List.map_map] at hids
  exact hids

theorem ids_spawn (c : Canvas) (kind : Kind) (p : Point Float) :
    (c.spawn kind p).ids = c.ids ++ [c.nextId] := by
  simp [ids, spawn]

theorem ids_attach {evicted : Option BlockId} (hok : c.attach id slot = (c', .ok evicted)) :
    c'.ids = c.ids :=
  ids_of_register (register_attach hok)

theorem ids_instantiateInto {kind : Kind} {evicted : Option BlockId}
    (hok : c.instantiateInto kind slot = (c', .ok (id, evicted))) : c'.ids = c.ids ++ [id] := by
  obtain ⟨rfl, hattach⟩ := instantiateInto_eq_ok hok
  exact (ids_attach hattach).trans (c.ids_spawn kind _)

theorem ids_detachToFree {p : Point Float} (hok : c.detachToFree id p = (c', .ok ())) :
    c'.ids = c.ids :=
  ids_of_register (register_detachToFree hok)

theorem ids_attachConnector {head : BlockId} (hok : c.attachConnector id head = (c', .ok ())) :
    c'.ids = c.ids :=
  ids_of_register (register_attachConnector hok)

theorem ids_prune (c : Canvas) (id : BlockId) :
    (c.prune id).ids = c.ids.filter (· ∉ c.subtree id) := by
  have hids : ((c.prune id).blocks.map Block.id) =
      ((c.detach id).blocks.map Block.id).filter fun x => !(c.subtree id).contains x := by
    rw [List.filter_map]
    rfl
  rw [ids, hids, ← ids, ids_of_register (register_detach c id)]
  refine List.filter_congr fun x _ => ?_
  simp

/-- No canvas on the way to this one held the block. -/
def Unused (c : Canvas) (id : BlockId) : Prop :=
  ∀ (past : Canvas) (calls : List Call), past.Reachable → (past.watch calls).1 = c → id ∉ past.ids

theorem Sound.nextId_le_watch (h : c.Sound none) (calls : List Call) :
    c.nextId ≤ (c.watch calls).1.nextId := by
  induction calls generalizing c with
  | nil => exact Nat.le_refl _
  | cons call calls ih =>
    cases call with
    | edit e =>
      have hstep := e.step h
      refine Nat.le_trans ?_ (ih (hstep.sound h))
      generalize e.apply c = r at hstep ⊢
      cases hstep with
      | refused e => exact Nat.le_refl _
      | committed _ _ _ _ _ hn => exact hn
    | drain => exact ih (c := c.drainEvents.2) (h.congr rfl rfl rfl)
    | frame bounds discardZone =>
      exact ih (c := { c with bounds, discardZone }) (h.congr rfl rfl rfl)

theorem unused_nextId (c : Canvas) : c.Unused c.nextId := by
  rintro past calls hpast rfl hm
  obtain ⟨b, hb, he⟩ := List.mem_map.1 hm
  have hlt := hpast.sound.fresh b hb
  exact Nat.lt_irrefl _ (Nat.lt_of_lt_of_le (he ▸ hlt) (hpast.sound.nextId_le_watch calls))

/-! ### What each call keeps -/

structure Kept (moved : List BlockId) (c c' : Canvas) : Prop where
  blocks : ∀ {x b b'}, c.block? x = some b → c'.block? x = some b' → b.Kept moved b'
  roots : c'.roots.filter (· ∉ moved) = c.roots.filter (· ∉ moved)

theorem Undisturbed.kept (h : c.Undisturbed moved c') : c.Kept moved c' where
  blocks hb hb' := by
    obtain ⟨b'', hb'', he⟩ := h.blocks hb
    obtain rfl := Option.some.inj (hb'.symm.trans hb'')
    exact Block.kept_of_apart he
  roots := h.roots

theorem kept_prune (h : c.Linked none) {b : Block} (hb : c.block? id = some b) :
    c.Kept (c.subtree id) (c.prune id) := by
  have hm : id ∈ c.subtree id := (mem_subtree_iff h hb).2 (within_self c id)
  constructor
  · intro x a a' ha ha'
    rw [block?_prune h hb, block?_without, ha] at ha'
    split at ha'
    · obtain rfl := Option.some.inj ha'
      exact Block.kept_of_apart (a.apart_without hm)
    · cases ha'
  · have hroots := listed_prune h hb (o := .free) (fun host hh => nomatch hh)
    simp only [listed] at hroots
    rw [hroots, List.filter_filter]
    refine List.filter_congr fun r _ => ?_
    by_cases hr : r = id <;> simp [hr, hm]

/-- What the calls that move, create and remove blocks do to the blocks there are. -/
structure Conserves (c : Canvas) : Prop where
  refused : ∀ (e : Edit) r, (e.apply c).2 = .error r → (e.apply c).1 = c
  attach : ∀ {id slot c' evicted}, c.attach id slot = (c', .ok evicted) →
    c'.ids = c.ids ∧ c.Kept (id :: evicted.toList) c'
  detachToFree : ∀ {id p c'}, c.detachToFree id p = (c', .ok ()) → c'.ids = c.ids ∧ c.Kept [id] c'
  attachConnector : ∀ {id head c'}, c.attachConnector id head = (c', .ok ()) →
    c'.ids = c.ids ∧ c.Kept [id] c'
  instantiate : ∀ {kind p c' id}, c.instantiate kind p = (c', id) →
    c.Unused id ∧ c'.ids = c.ids ++ [id] ∧ c.Kept [id] c'
  instantiateInto : ∀ {kind slot c' id evicted},
    c.instantiateInto kind slot = (c', .ok (id, evicted)) →
      c.Unused id ∧ c'.ids = c.ids ++ [id] ∧ c.Kept (id :: evicted.toList) c'
  discard : ∀ {id c' removed}, c.discard id = (c', .ok removed) →
    removed.Nodup ∧ (∀ x, x ∈ removed ↔ x ∈ c.ids ∧ id ∈ c.ancestry x) ∧
      c'.ids = c.ids.filter (· ∉ removed) ∧ c.Kept removed c'

theorem Step.refused_eq {α : Type} {r : Canvas × Except Refusal α} {e : Refusal} (h : c.Step r)
    (he : r.2 = .error e) : r.1 = c := by
  cases h with
  | refused _ => rfl
  | committed _ _ _ _ _ _ => cases he

theorem Sound.conserves_discard (h : c.Sound none) {removed : List BlockId}
    (hok : c.discard id = (c', .ok removed)) :
    removed.Nodup ∧ (∀ x, x ∈ removed ↔ x ∈ c.ids ∧ id ∈ c.ancestry x) ∧
      c'.ids = c.ids.filter (· ∉ removed) ∧ c.Kept removed c' := by
  obtain ⟨b, hb, rfl, rfl⟩ := discard_eq_ok hok
  have hkept := kept_prune h.toLinked hb
  refine ⟨nodup_subtree h.toLinked hb, fun x => ?_, c.ids_prune id, hkept.blocks, hkept.roots⟩
  rw [mem_subtree_iff h.toLinked hb, mem_ids_iff, mem_ancestry_iff h.toLinked]
  exact ⟨fun hw => ⟨exists_block_of_within hb hw, hw⟩, And.right⟩

theorem conserves_of_sound (h : c.Sound none) : c.Conserves where
  refused e r he := (e.step h).refused_eq he
  attach hok := ⟨ids_attach hok, (h.undisturbed_attach hok).kept⟩
  detachToFree hok := ⟨ids_detachToFree hok, (h.undisturbed_detachToFree hok).kept⟩
  attachConnector hok := ⟨ids_attachConnector hok, (h.undisturbed_attachConnector hok).kept⟩
  instantiate {kind p c' id} hok := by
    obtain ⟨rfl, rfl⟩ := Prod.mk.inj hok
    exact ⟨c.unused_nextId, c.ids_spawn kind p,
      ((Undisturbed.spawn h.toLinked kind p List.mem_cons_self).commit _).kept⟩
  instantiateInto {kind slot c' id evicted} hok := by
    obtain ⟨rfl, -⟩ := instantiateInto_eq_ok hok
    exact ⟨c.unused_nextId, ids_instantiateInto hok, (h.undisturbed_instantiateInto hok).kept⟩
  discard := h.conserves_discard

/-- On no canvas that edits lead to does a call lose, double or reorder what it does not move. -/
theorem Reachable.conserves (h : c.Reachable) : c.Conserves :=
  conserves_of_sound h.sound

theorem conserves_branching :
    let edits : List Edit :=
      [.instantiate .ifBranch .origin, .pushLine ⟨1, 1⟩ "a", .instantiateInto .print ⟨1, 1⟩,
        .pushLine ⟨1, 1⟩ "b", .instantiateInto .print ⟨1, 1⟩, .setLiteral ⟨1, 0⟩ "n",
        .instantiateInto .operation ⟨1, 0⟩, .instantiate .elseBranch .origin,
        .attachConnector 5 1, .instantiate .elifBranch .origin]
    let c := Edit.run empty edits
    let shown (c : Canvas) := (c.block? 1).map fun b =>
      (b.slots.map Slot.literal?, b.slots.map Slot.lines, b.slots.map Slot.children, b.chain)
    shown c = some ([some "n", none], [[], ["a", "b"]], [[4], [2, 3]], [5]) ∧
      shown (c.instantiateInto .operation ⟨1, 0⟩).1 =
        some ([some "n", none], [[], ["a", "b"]], [[7], [2, 3]], [5]) ∧
      shown (c.attachConnector 6 1).1 =
        some ([some "n", none], [[], ["a", "b"]], [[4], [2, 3]], [6, 5]) ∧
      c.ids = [1, 2, 3, 4, 5, 6] ∧ (c.discard 1).1.ids = [6] ∧ c.Reachable ∧ c.Conserves := by
  intro edits c shown
  have hc : c.Reachable := Reachable.run (.start _) edits
  exact ⟨by decide, by decide, by decide, by decide, by decide, hc, Reachable.conserves hc⟩

end Canvas
end BlockCanvas
