import BlockCanvas.Proofs.Forest

/-!
Taking a block out of what owns it is taking it out of every list (`detach_eq_without`). It leaves the
block loose, and a loose block that goes into one list is settled again (`Linked.settle`).
-/
namespace BlockCanvas

namespace Block

theorem Typed.congr {kindOf kindOf' : BlockId → Option Kind} {b : Block} (h : b.Typed kindOf)
    (hk : ∀ k ∈ b.owned, kindOf' k = kindOf k) : b.Typed kindOf' where
  slots := h.slots
  operator := h.operator
  nests s hs k hm := by
    rw [hk k (mem_owned.2 (Or.inl ⟨s, hs, hm⟩))]
    exact h.nests s hs k hm
  heads := h.heads
  connectors k hm := by
    rw [hk k (mem_owned.2 (Or.inr hm))]
    exact h.connectors k hm
  elseLast := by
    refine h.elseLast.imp_of_mem fun {k _} hm _ hne => ?_
    rwa [hk k (mem_owned.2 (Or.inr hm))]

theorem Typed.without {kindOf : BlockId → Option Kind} {b : Block} (h : b.Typed kindOf)
    (id : BlockId) : (b.without id).Typed kindOf where
  slots := by
    have hsig : Slot.signature ∘ Slot.without id = Slot.signature (β := BlockId) :=
      funext (Slot.signature_without id)
    simpa only [Block.without, Block.strip, List.map_map, hsig] using h.slots
  operator := h.operator
  nests s hs k hm := by
    obtain ⟨s, hs', rfl⟩ := List.mem_map.1 hs
    rw [Slot.children_without] at hm
    have hshape : (s.without id).shape = s.shape := Content.shape_unlink id s.content
    rw [hshape]
    exact h.nests s hs' k (List.mem_of_mem_filter hm)
  heads hne := h.heads fun he => hne (by simp [Block.without, Block.strip, he])
  connectors k hm := h.connectors k (List.mem_of_mem_filter hm)
  elseLast := h.elseLast.filter _

theorem map_without_of_notMem {id : BlockId} {slots : List (Slot BlockId)}
    (h : ∀ s ∈ slots, id ∉ s.children) : slots.map (Slot.without id) = slots :=
  (List.map_congr_left fun s hs => Slot.without_of_notMem (h s hs)).trans (List.map_id slots)

theorem modify_unlink_eq {id : BlockId} (index : Nat) {slots : List (Slot BlockId)}
    (h : ∀ i s, slots[i]? = some s → id ∈ s.children → i = index) :
    (slots.modify index fun s => { s with content := s.content.unlink id }) =
      slots.map (Slot.without id) := by
  refine List.ext_getElem? fun i => ?_
  rw [List.getElem?_modify, List.getElem?_map]
  cases hs : slots[i]? with
  | none => simp
  | some s =>
    by_cases hi : index = i
    · simp [hi, Slot.without]
    · have hnot : id ∉ s.children := fun hm => hi (h i s hs hm).symm
      simp [hi, Slot.without_of_notMem hnot]

end Block

namespace Canvas
variable {c c' : Canvas} {id x : BlockId} {loose : Option BlockId}

/-- The first half of a detachment: the owner forgets the block, which still names it. -/
def unlinked (c : Canvas) (id : BlockId) : Canvas :=
  match (c.block? id).map Block.owner with
  | some .free => { c with roots := c.roots.filter fun r => r != id }
  | some (.slot slot) => c.modifySlot slot (Content.unlink id)
  | some (.chain head) => c.modify head fun b => { b with chain := b.chain.filter fun k => k != id }
  | none => c

def without (c : Canvas) (id : BlockId) : Canvas :=
  { c with blocks := c.blocks.map (Block.without id), roots := c.roots.filter (· != id) }

/-! ### Taking a block out -/

theorem unlink_eq_strip (h : c.Linked none) {b : Block} (hb : c.block? id = some b) :
    c.unlinked id =
      { c with blocks := c.blocks.map (Block.strip id), roots := c.roots.filter (· != id) } := by
  have hown : c.owner? id = some b.owner := by simp [owner?, hb]
  have honly : ∀ o, id ∈ c.listed o → o = b.owner := by
    intro o hm
    exact Option.some.inj ((h.owner?_of_mem_listed hm).symm.trans hown)
  have hslot : ∀ a ∈ c.blocks, ∀ (i : Nat) (s : Slot BlockId), a.slots[i]? = some s →
      id ∈ s.children → Owner.slot ⟨a.id, i⟩ = b.owner := by
    intro a ha i s hs hm
    exact honly _ ((mem_listed_slot (block?_of_mem h.ascending ha)).2 ⟨s, hs, hm⟩)
  -- what is no slot, no chain and no root list of the owner is as it was
  have hslots : ∀ a ∈ c.blocks, (∀ i, Owner.slot ⟨a.id, i⟩ ≠ b.owner) →
      a.slots.map (Slot.without id) = a.slots := by
    intro a ha hne
    refine Block.map_without_of_notMem fun s hs hm => ?_
    obtain ⟨i, hi⟩ := List.getElem?_of_mem hs
    exact hne i (hslot a ha i s hi hm)
  have hchain : ∀ a ∈ c.blocks, Owner.chain a.id ≠ b.owner →
      a.chain.filter (· != id) = a.chain := by
    intro a ha hne
    refine List.filter_bne_eq_self_of_not_mem fun hm => hne (honly _ ?_)
    exact (mem_listed_chain (block?_of_mem h.ascending ha)).2 hm
  have hroots : Owner.free ≠ b.owner → c.roots.filter (· != id) = c.roots :=
    fun hne => List.filter_bne_eq_self_of_not_mem fun hm => hne (honly .free hm)
  unfold unlinked
  rw [hb, Option.map_some]
  -- only a list of the owner is edited, and no other list has the block in it
  cases ho : b.owner with
  | free =>
    have hsame : ∀ a ∈ c.blocks, a.strip id = a := by
      intro a ha
      simp only [Block.strip, hslots a ha (by simp [ho]), hchain a ha (by simp [ho])]
    simp only [List.map_congr_left hsame, List.map_id']
  | slot place =>
    have hsame : ∀ a ∈ c.blocks,
        (if a.id == place.host then a.reslot place.index (Content.unlink id) else a) = a.strip id := by
      intro a ha
      have hc := hchain a ha (by simp [ho])
      by_cases hid : a.id = place.host
      · have hs := Block.modify_unlink_eq place.index fun i s hs hm => by
          have := hslot a ha i s hs hm
          rw [ho, Owner.slot.injEq] at this
          exact congrArg SlotId.index this
        simp only [hid, beq_self_eq_true, if_true, Block.reslot, Block.strip, hc, hs]
      · have hs := hslots a ha fun i he => hid (by
          rw [ho, Owner.slot.injEq] at he
          exact congrArg SlotId.host he)
        simp only [beq_iff_eq, hid, if_false, Block.strip, hc, hs]
    simp only [modifySlot_eq, modify, List.map_congr_left hsame, hroots (by simp [ho])]
  | chain head =>
    have hsame : ∀ a ∈ c.blocks,
        (if a.id == head then { a with chain := a.chain.filter fun k => k != id } else a) =
          a.strip id := by
      intro a ha
      have hs := hslots a ha (by simp [ho])
      by_cases hid : a.id = head
      · simp only [hid, beq_self_eq_true, if_true, Block.strip, hs]
      · have hc := hchain a ha (by simpa [ho] using hid)
        simp only [beq_iff_eq, hid, if_false, Block.strip, hc, hs]
    simp only [modify, List.map_congr_left hsame, hroots (by simp [ho])]

theorem detach_eq_without (h : c.Linked none) {b : Block} (hb : c.block? id = some b) :
    c.detach id = c.without id := by
  have hstep : c.detach id = (c.unlinked id).modify id fun b => { b with owner := .free } := rfl
  rw [hstep, unlink_eq_strip h hb]
  simp only [modify, without, List.map_map]
  congr 1
  refine List.map_congr_left fun a _ => ?_
  by_cases ha : a.id = id <;> simp [Block.strip, Block.without, ha]

/-! ### The views after a detachment -/

theorem block?_without (c : Canvas) (id x : BlockId) :
    (c.without id).block? x = (c.block? x).map (Block.without id) := by
  have hp : ((fun b : Block => b.id == x) ∘ Block.without id) = fun b => b.id == x := rfl
  simp only [block?, without, List.find?_map, hp]

theorem owner?_without (c : Canvas) (id x : BlockId) :
    (c.without id).owner? x = (c.owner? x).map fun o => if x = id then .free else o := by
  rw [owner?, block?_without, owner?]
  cases hb : c.block? x with
  | none => rfl
  | some b => simp [Block.without, id_of_block? hb]

theorem owner?_without_self {b : Block} (hb : c.block? id = some b) :
    (c.without id).owner? id = some .free := by
  rw [owner?_without, owner?, hb]
  simp

theorem owner?_without_of_ne (c : Canvas) (hne : x ≠ id) :
    (c.without id).owner? x = c.owner? x := by
  simp [owner?_without, hne]

@[simp]
theorem kind?_without (c : Canvas) (id : BlockId) : (c.without id).kind? = c.kind? := by
  funext x
  rw [kind?, block?_without, Option.map_map]
  rfl

theorem slot?_without (c : Canvas) (id : BlockId) (slot : SlotId) :
    (c.without id).slot? slot = (c.slot? slot).map (Slot.without id) := by
  rw [slot?, block?_without, slot?]
  cases c.block? slot.host with
  | none => rfl
  | some b => simp [Block.without, Block.strip]

theorem listed_without (c : Canvas) (id : BlockId) (o : Owner) :
    (c.without id).listed o = (c.listed o).filter (· != id) := by
  cases o with
  | free => rfl
  | slot place =>
    rw [listed, slot?_without, listed]
    cases c.slot? place <;> simp
  | chain head =>
    rw [listed, block?_without, listed]
    cases c.block? head <;> simp [Block.without, Block.strip]

theorem Linked.without (h : c.Linked none) {b : Block} (hb : c.block? id = some b) :
    (c.without id).Linked (some id) where
  ascending := ascending_map (f := Block.without id) (fun _ => rfl) h.ascending
  fresh a ha := by
    obtain ⟨a, ha', rfl⟩ := List.mem_map.1 ha
    exact h.fresh a ha'
  nodup o := by
    rw [listed_without]
    exact (h.nodup o).filter _
  link o x := by
    rw [listed_without, List.mem_filter, h.link]
    by_cases hx : x = id
    · simp [hx]
    · simp [owner?_without_of_ne c hx, hx, Ne.symm hx]
  out x hx := by
    obtain rfl := Option.some.inj hx
    exact owner?_without_self hb
  grounded a ha := by
    obtain ⟨a, ha', rfl⟩ := List.mem_map.1 ha
    refine (h.grounded a ha').mono fun y => ?_
    by_cases hy : y = id
    · subst hy
      exact Or.inr (owner?_without_self hb)
    · exact Or.inl (owner?_without_of_ne c hy)

theorem Sound.detach (h : c.Sound none) {b : Block} (hb : c.block? id = some b) :
    (c.detach id).Sound (some id) := by
  rw [detach_eq_without h.toLinked hb]
  refine ⟨h.toLinked.without hb, fun a ha => ?_⟩
  obtain ⟨a, ha', rfl⟩ := List.mem_map.1 ha
  rw [kind?_without]
  exact (h.typed a ha').without id

/-! ### Settling a loose block -/

/-- A loose block that goes into one list, and names its owner, is loose no more. -/
theorem Linked.settle (h : c.Linked (some id)) (o : Owner)
    (hids : c'.blocks.map Block.id = c.blocks.map Block.id) (hnext : c'.nextId = c.nextId)
    (hperm : (c'.listed o).Perm (c.listed o ++ [id]))
    (hothers : ∀ o', o' ≠ o → c'.listed o' = c.listed o')
    (howner : ∀ y, c'.owner? y = if y = id then some o else c.owner? y)
    (hout : ∀ host, o.host? = some host → c.Grounded host ∧ ¬ c.Within host id) :
    c'.Linked none := by
  have hloose : ∀ o', id ∉ c.listed o' := fun o' hm => ((h.link o' id).1 hm).2 rfl
  refine ⟨ascending_of_ids hids h.ascending, ?fresh, ?nodup, ?link, by simp, ?grounded⟩
  case fresh =>
    intro b hb
    obtain ⟨a, ha, he⟩ := exists_mem_of_ids hids hb
    rw [hnext, ← he]
    exact h.fresh a ha
  case nodup =>
    intro o'
    by_cases ho : o' = o
    · rw [ho, (hperm.trans List.perm_append_comm).nodup_iff, List.singleton_append, List.nodup_cons]
      exact ⟨hloose o, h.nodup o⟩
    · rw [hothers o' ho]
      exact h.nodup o'
  case link =>
    intro o' x
    by_cases hx : x = id
    · subst hx
      by_cases ho : o' = o
      · simp [ho, hperm.mem_iff, howner]
      · simp [hothers o' ho, hloose, howner, Ne.symm ho]
    · have hold : x ∈ c.listed o' ↔ c.owner? x = some o' := by simp [h.link, Ne.symm hx]
      by_cases ho : o' = o
      · subst ho
        simp [hperm.mem_iff, howner, hx, hold]
      · simp [hothers o' ho, howner, hx, hold]
  case grounded =>
    intro b hb
    obtain ⟨a, ha, he⟩ := exists_mem_of_ids hids hb
    rw [← he]
    cases hh : o.host? with
    | none =>
      refine (h.grounded a ha).mono fun y => ?_
      have hfree : o = .free := by cases o <;> simp_all [Owner.host?]
      by_cases hy : y = id <;> simp [howner, hy, hfree]
    | some host =>
      -- the one step up that is new leads to the host, which is not below the block
      obtain ⟨hg, hw⟩ := hout host hh
      exact Grounded.relink howner hh hg hw (h.grounded a ha)

end Canvas
end BlockCanvas
