import BlockCanvas.Proofs.Ledger
import BlockCanvas.Proofs.Register

/-!
What becomes of a canvas when a block goes into a slot. The slot takes the block, and for it lets go of the
one it held; all other lists lose the block and nothing else. Where the block came from makes no difference,
not even below the one that it displaces.
-/
namespace BlockCanvas

namespace Content
variable {id k : BlockId} {content : Content BlockId}

/-- A value slot forgets whom it held before it takes a block, so it does not matter who was taken out. -/
theorem link_unlink (h : content.shape = .value) :
    ((content.unlink k).unlink id).link id = (content.unlink id).link id := by
  cases content with
  | value child literal => rfl
  | body entries => cases h

end Content

namespace Canvas
variable {c c' : Canvas} {id x : BlockId} {slot place : SlotId} {α : Type}

/-! ### Single blocks and slots after the elementary changes -/

theorem map_block?_modify {f : Block → Block} {g : Block → α} (hf : ∀ b, (f b).id = b.id)
    (hg : ∀ b, g (f b) = g b) (id x : BlockId) :
    ((c.modify id f).block? x).map g = (c.block? x).map g := by
  rw [block?_modify hf, Option.map_map]
  congr 1
  funext b
  simp only [Function.comp]
  split
  · exact hg b
  · rfl

theorem slot?_modify {f : Block → Block} (hf : ∀ b, (f b).id = b.id)
    (hs : ∀ b, (f b).slots = b.slots) (id : BlockId) (place : SlotId) :
    (c.modify id f).slot? place = c.slot? place := by
  rw [slot?, slot?, block?_modify hf]
  cases c.block? place.host with
  | none => rfl
  | some b => by_cases hid : b.id = id <;> simp [hid, hs]

theorem slot?_modifySlot {s : Slot BlockId} (hs : c.slot? slot = some s)
    (f : Content BlockId → Content BlockId) (place : SlotId) :
    (c.modifySlot slot f).slot? place =
      if place = slot then some { s with content := f s.content } else c.slot? place := by
  obtain ⟨b, hb, hi⟩ := exists_of_slot? hs
  rw [modifySlot_eq, slot?, slot?]
  by_cases hhost : place.host = slot.host
  · rw [hhost, block?_modify_self (f := Block.reslot slot.index f) (fun _ => rfl), hb]
    by_cases hindex : slot.index = place.index
    · have he : place = slot := by
        cases place; cases slot; simp_all
      simp [he, Block.reslot, hi]
    · have hne : place ≠ slot := fun he => hindex (he ▸ rfl)
      simp [hne, Block.reslot, hindex]
  · have hne : place ≠ slot := fun he => hhost (he ▸ rfl)
    rw [block?_modify_of_ne (f := Block.reslot slot.index f) (fun _ => rfl) hhost, if_neg hne]

theorem slot?_link {s : Slot BlockId} (hs : c.slot? slot = some s) (id : BlockId) (place : SlotId) :
    (c.link id slot).slot? place =
      if place = slot then some { s with content := s.content.link id } else c.slot? place := by
  rw [← slot?_modifySlot hs]
  exact slot?_modify (f := fun b => { b with owner := .slot slot }) (fun _ => rfl) (fun _ => rfl) id place

theorem map_block?_link {g : Block → α} (hslots : ∀ b slots, g { b with slots } = g b)
    (howner : ∀ b owner, g { b with owner } = g b) (id : BlockId) (slot : SlotId) (x : BlockId) :
    ((c.link id slot).block? x).map g = (c.block? x).map g := by
  have hlinked := map_block?_modify (c := c) (f := Block.reslot slot.index (Content.link id)) (g := g)
    (fun _ => rfl) (fun b => hslots b _) slot.host x
  rw [← hlinked]
  exact map_block?_modify (f := fun b => { b with owner := .slot slot }) (fun _ => rfl)
    (fun b => howner b _) id x

/-! ### A slot that makes room -/

theorem roomy_of_occupant? (h : c.Linked none) {k : BlockId} (ho : c.occupant? id slot = some k) :
    c.roomy id slot = (c.without k).makeFree k
      ⟨(c.anchor slot.host).x + 24, (c.anchor slot.host).y + 24⟩ := by
  obtain ⟨b, hb, -⟩ := Linked.exists_block_of_owner? (owner?_of_occupant? h ho)
  rw [roomy, ho, ← detach_eq_without h hb]
  rfl

theorem slot?_roomy_of_ne (h : c.Linked none) (hne : place ≠ slot) :
    (c.roomy id slot).slot? place = c.slot? place := by
  cases ho : c.occupant? id slot with
  | none => rw [roomy, ho]
  | some k =>
    rw [roomy_of_occupant? h ho, slot?_makeFree, slot?_without]
    cases hs : c.slot? place with
    | none => rfl
    | some s =>
      refine congrArg some (Slot.without_of_notMem fun hk => hne ?_)
      have hplace := h.owner?_of_mem_listed (o := .slot place) (by simpa [listed, hs] using hk)
      simpa using hplace.symm.trans (owner?_of_occupant? h ho)

theorem chain_roomy (h : c.Linked none) (id : BlockId) (slot : SlotId) (head : BlockId) :
    ((c.roomy id slot).block? head).map Block.chain = (c.block? head).map Block.chain := by
  cases ho : c.occupant? id slot with
  | none => rw [roomy, ho]
  | some k =>
    rw [roomy_of_occupant? h ho, block?_makeFree, block?_without]
    cases hb : c.block? head with
    | none => rfl
    | some b =>
      -- the evicted block was in a slot, and no block is in two lists
      have hk : k ∉ b.chain := fun hk => by
        have hhead := h.owner?_of_mem_listed (o := .chain head) (by simpa [listed, hb] using hk)
        simpa using hhead.symm.trans (owner?_of_occupant? h ho)
      by_cases hid : b.id = k <;>
        simp [Block.without, Block.strip, hid, List.filter_bne_eq_self_of_not_mem hk]

theorem position_roomy (h : c.Linked none) (id : BlockId) (slot : SlotId) (x : BlockId) :
    ((c.roomy id slot).block? x).map Block.position =
      if c.occupant? id slot = some x then
        some ⟨(c.anchor slot.host).x + 24, (c.anchor slot.host).y + 24⟩
      else (c.block? x).map Block.position := by
  cases ho : c.occupant? id slot with
  | none => simp [roomy, ho]
  | some k =>
    rw [roomy_of_occupant? h ho, block?_makeFree, block?_without]
    obtain ⟨a, ha, -⟩ := Linked.exists_block_of_owner? (owner?_of_occupant? h ho)
    by_cases hx : k = x
    · subst hx
      simp [ha, Block.without, Block.strip, id_of_block? ha]
    · cases hb : c.block? x with
      | none => simp [hx]
      | some b => simp [Block.without, Block.strip, id_of_block? hb, hx, Ne.symm hx]

theorem slot?_vacated (h : c.Sound none) {s : Slot BlockId} (hs : c.slot? slot = some s) {kind : Kind}
    (hk : c.kind? id = some kind) :
    ∃ s', ((c.roomy id slot).detach id).slot? slot = some s' ∧ s'.name = s.name ∧
      s'.content.link id = (s.content.unlink id).link id := by
  have hr := h.roomy hs id
  obtain ⟨b, hb, -⟩ : ∃ b, (c.roomy id slot).block? id = some b ∧ b.kind = kind := by
    simpa [kind?] using (congrFun hr.kind? id).trans hk
  rw [slot?_detach hr.sound.toLinked hb]
  cases ho : c.occupant? id slot with
  | none =>
    have hroomy : c.roomy id slot = c := by rw [roomy, ho]
    exact ⟨s.without id, by rw [hroomy, hs, Option.map_some], rfl, rfl⟩
  | some k =>
    rw [roomy_of_occupant? h.toLinked ho, slot?_makeFree, slot?_without, hs]
    exact ⟨_, rfl, rfl, Content.link_unlink (occupant?_eq_some hs ho).1⟩

/-! ### The attachment as a whole -/

structure Attached (c : Canvas) (id : BlockId) (slot : SlotId) (evicted : Option BlockId)
    (c' : Canvas) : Prop where
  answer : ∀ k, evicted = some k ↔
    k ≠ id ∧ ∃ name literal, c.slot? slot = some ⟨name, .value (some k) literal⟩
  value : ∀ name child literal, c.slot? slot = some ⟨name, .value child literal⟩ →
    c'.slot? slot = some ⟨name, .value (some id) literal⟩
  body : ∀ name entries, c.slot? slot = some ⟨name, .body entries⟩ →
    c'.slot? slot = some ⟨name, .body (entries.filter (fun e => e.block? != some id) ++ [.block id])⟩
  otherSlots : ∀ place, place ≠ slot → c'.slot? place = (c.slot? place).map (Slot.without id)
  chains : ∀ head, (c'.block? head).map Block.chain =
    (c.block? head).map fun b => b.chain.filter (· != id)
  roots : c'.roots = c.roots.filter (· != id) ++ evicted.toList
  left : ∀ o, o ≠ .slot slot → id ∉ c'.listed o
  owners : ∀ x, c'.owner? x =
    if x = id then some (.slot slot) else if evicted = some x then some .free else c.owner? x
  positions : ∀ x, (c'.block? x).map Block.position =
    if evicted = some x then some ⟨(c.anchor slot.host).x + 24, (c.anchor slot.host).y + 24⟩
    else (c.block? x).map Block.position
  register : c'.register = c.register
  setting : c'.setting =
    (c.revision + 1, c.events ++ [.nested id slot evicted], c.bounds, c.discardZone)

theorem occupant?_eq_some_iff {k : BlockId} : c.occupant? id slot = some k ↔
    k ≠ id ∧ ∃ name literal, c.slot? slot = some ⟨name, .value (some k) literal⟩ := by
  unfold occupant?
  rcases c.slot? slot with _ | ⟨name, ⟨_ | child, literal⟩ | entries⟩
  · simp
  · simp
  · by_cases hchild : child = id
    · simp [hchild, eq_comm]
    · simp only [Option.map_some, beq_iff_eq, hchild, if_false, Option.some.injEq, Slot.mk.injEq,
        Content.value.injEq]
      constructor
      · rintro rfl
        exact ⟨hchild, name, literal, rfl, rfl, rfl⟩
      · rintro ⟨-, _, _, -, he, -⟩
        exact he
  · simp

theorem Sound.owner?_of_attach (h : c.Sound none) {evicted : Option BlockId}
    (hok : c.attach id slot = (c', .ok evicted)) (x : BlockId) :
    c'.owner? x =
      if x = id then some (.slot slot) else if evicted = some x then some .free else c.owner? x := by
  refine (congrFun (congrArg Ledger.owner (h.ledger_attach hok)) x).trans ?_
  rw [Ledger.owner_move]
  cases evicted with
  | none => rfl
  | some k => simp [Ledger.owner_release, ledger, eq_comm]

theorem Sound.roots_of_attach (h : c.Sound none) {evicted : Option BlockId}
    (hok : c.attach id slot = (c', .ok evicted)) :
    c'.roots = c.roots.filter (· != id) ++ evicted.toList := by
  refine (congrArg Ledger.roots (h.ledger_attach hok)).trans ?_
  cases evicted with
  | none => simp [Ledger.move, ledger]
  | some k =>
    have hne : k ≠ id := (occupant?_eq_some_iff.1 (attach_eq_ok hok).2.1.symm).1
    simp [Ledger.move, Ledger.release, ledger, hne]

theorem Sound.attached (h : c.Sound none) {evicted : Option BlockId}
    (hok : c.attach id slot = (c', .ok evicted)) : c.Attached id slot evicted c' := by
  have howners := h.owner?_of_attach hok
  have hroots := h.roots_of_attach hok
  have hregister := register_attach hok
  have hsound := (hok ▸ h.attach id slot).of_ok.1
  obtain ⟨hcheck, rfl, rfl⟩ := attach_eq_ok hok
  obtain ⟨kind, host, s, hk, -, hs, -, -⟩ := checkAttach_eq_ok_iff.1 hcheck
  have hr := h.roomy hs id
  obtain ⟨b, hb⟩ := hr.exists_block hk
  obtain ⟨s', hs', hname, hcontent⟩ := slot?_vacated h hs hk
  have hslot := slot?_link hs' id
  -- what is neither slot nor owner was settled before the block is linked
  have hview {α : Type} {g : Block → α} (hslots : ∀ b slots, g { b with slots } = g b)
      (howner : ∀ b owner, g { b with owner } = g b) (x : BlockId) :
      ((((c.roomy id slot).detach id).link id slot).block? x).map g =
        (((c.roomy id slot).block? x).map (Block.without id)).map g := by
    rw [map_block?_link hslots howner, detach_eq_without hr.sound.toLinked hb, block?_without]
  refine ⟨fun k => occupant?_eq_some_iff, ?value, ?body, ?otherSlots, ?chains, hroots, ?left, howners,
    ?positions, hregister, ?setting⟩
  case value =>
    intro name child literal he
    obtain rfl := Option.some.inj (hs.symm.trans he)
    refine (hslot slot).trans ?_
    rw [if_pos rfl, hname, hcontent]
    rfl
  case body =>
    intro name entries he
    obtain rfl := Option.some.inj (hs.symm.trans he)
    refine (hslot slot).trans ?_
    rw [if_pos rfl, hname, hcontent]
    rfl
  case otherSlots =>
    intro place hne
    refine (hslot place).trans ?_
    rw [if_neg hne, slot?_detach hr.sound.toLinked hb, slot?_roomy_of_ne h.toLinked hne]
  case chains =>
    intro head
    refine (hview (fun _ _ => rfl) (fun _ _ => rfl) head).trans ?_
    have hchain := chain_roomy h.toLinked id slot head
    cases hroomy : (c.roomy id slot).block? head <;> cases hblock : c.block? head <;>
      simp_all [Block.without, Block.strip]
  case left =>
    intro o ho hm
    -- a list that still has the block would be that of its owner, and that is the slot
    have howner := (hsound.owner?_of_mem_listed hm).symm.trans (howners id)
    rw [if_pos rfl, Option.some.injEq] at howner
    exact ho howner
  case positions =>
    intro x
    refine (hview (fun _ _ => rfl) (fun _ _ => rfl) x).trans ?_
    rw [Option.map_map]
    exact position_roomy h.toLinked id slot x
  case setting =>
    have hset := (setting_detach (c.roomy id slot) id).trans hr.setting
    simp only [Canvas.setting, Prod.mk.injEq] at hset ⊢
    obtain ⟨hrev, hevents, hbounds, hzone⟩ := hset
    exact ⟨congrArg (· + 1) hrev, congrArg (· ++ [_]) hevents, hbounds, hzone⟩

/-- A block goes into a slot exactly if both are there, the one fits into the other and the slot is not below
the block; and then the canvas is that of `Attached`. -/
theorem Reachable.attach_outcome (h : c.Reachable) (id : BlockId) (slot : SlotId) :
    ((∃ c' evicted, c.attach id slot = (c', .ok evicted)) ↔
      ∃ kind host s, c.kind? id = some kind ∧ c.kind? slot.host = some host ∧ c.slot? slot = some s ∧
        canNest (.slot host s.shape) (.block kind) = true ∧ slot.host ∉ c.subtree id) ∧
    ∀ c' evicted, c.attach id slot = (c', .ok evicted) → c.Attached id slot evicted c' := by
  have hl := h.sound.toLinked
  have hbelow : ∀ kind, c.kind? id = some kind →
      (c.isWithin slot.host id = false ↔ slot.host ∉ c.subtree id) := by
    intro kind hk
    obtain ⟨b, hb, -⟩ := Option.map_eq_some_iff.1 hk
    exact isWithin_eq_false_iff hl hb
  refine ⟨⟨?_, ?_⟩, fun c' evicted hok => h.sound.attached hok⟩
  · rintro ⟨c', evicted, hok⟩
    obtain ⟨kind, host, s, hk, hh, hs, hfits, hw⟩ := checkAttach_eq_ok_iff.1 (attach_eq_ok hok).1
    exact ⟨kind, host, s, hk, hh, hs, hfits, (hbelow kind hk).1 hw⟩
  · rintro ⟨kind, host, s, hk, hh, hs, hfits, hw⟩
    exact ⟨_, _, attach_of_ok
      (checkAttach_eq_ok_iff.2 ⟨kind, host, s, hk, hh, hs, hfits, (hbelow kind hk).2 hw⟩)⟩

theorem attach_outcome_evicting :
    let c := Edit.run empty
      [.instantiate .print ⟨3, 4⟩, .instantiateInto .operation ⟨1, 0⟩, .instantiateInto .operation ⟨2, 0⟩]
    c.Reachable ∧ ∃ c', c.attach 3 ⟨1, 0⟩ = (c', .ok (some 2)) ∧ 1 ∉ c.subtree 3 ∧ 3 ∈ c.subtree 2 ∧
      c'.roots = [1, 2] ∧ c'.subtree 1 = [1, 3] ∧ c'.subtree 2 = [2] ∧
      c.Attached 3 ⟨1, 0⟩ (some 2) c' := by
  intro c
  have hc : c.Reachable := Reachable.run (.start _) _
  have ho : (c.attach 3 ⟨1, 0⟩).2 = .ok (some 2) := by decide
  have hok : c.attach 3 ⟨1, 0⟩ = ((c.attach 3 ⟨1, 0⟩).1, .ok (some 2)) := by rw [← ho]
  exact ⟨hc, _, hok, by decide, by decide, by decide, by decide, by decide,
    (Reachable.attach_outcome hc 3 ⟨1, 0⟩).2 _ _ hok⟩

end Canvas
end BlockCanvas
