import BlockCanvas.Proofs.Edits

/-!
What moving blocks cannot touch. The ids and faces of the blocks and the next id are one list, and every
edit that only says where a block is leaves it as it was.
-/
namespace BlockCanvas.Canvas
variable {c c' : Canvas} {id : BlockId}

def register (c : Canvas) : List (BlockId × Face) × BlockId :=
  (c.blocks.map fun b => (b.id, b.toFace), c.nextId)

theorem register_modify {f : Block → Block} (hid : ∀ b, (f b).id = b.id)
    (hface : ∀ b, (f b).toFace = b.toFace) (id : BlockId) : (c.modify id f).register = c.register := by
  refine congrArg (·, c.nextId) ?_
  rw [modify, List.map_map]
  refine List.map_congr_left fun b _ => ?_
  simp only [Function.comp]
  split
  · rw [hid, hface]
  · rfl

theorem register_modifySlot (c : Canvas) (slot : SlotId) (f : Content BlockId → Content BlockId) :
    (c.modifySlot slot f).register = c.register :=
  register_modify (f := Block.reslot slot.index f) (fun _ => rfl) (fun _ => rfl) slot.host

theorem register_detach (c : Canvas) (id : BlockId) : (c.detach id).register = c.register := by
  have hunlinked : (c.unlinked id).register = c.register := by
    unfold unlinked
    split
    · rfl
    · exact register_modifySlot c _ _
    · exact register_modify (f := fun b => { b with chain := b.chain.filter fun k => k != id })
        (fun _ => rfl) (fun _ => rfl) _
    · rfl
  exact (register_modify (f := fun b => { b with owner := .free }) (fun _ => rfl) (fun _ => rfl) id).trans
    hunlinked

theorem register_makeFree (c : Canvas) (id : BlockId) (p : Point Float) :
    (c.makeFree id p).register = c.register := by
  have hfree : (c.modify id fun b => { b with owner := .free, position := p }).register = c.register :=
    register_modify (f := fun b => { b with owner := .free, position := p }) (fun _ => rfl)
      (fun _ => rfl) id
  simp only [makeFree]
  split
  · exact hfree
  · exact hfree

theorem register_attach {slot : SlotId} {evicted : Option BlockId}
    (hok : c.attach id slot = (c', .ok evicted)) : c'.register = c.register := by
  obtain ⟨-, -, rfl⟩ := attach_eq_ok hok
  have hroomy : (c.roomy id slot).register = c.register := by
    unfold roomy
    split
    · exact (register_makeFree _ _ _).trans (register_detach _ _)
    · rfl
  have howned := register_modify (c := ((c.roomy id slot).detach id).modifySlot slot (Content.link id))
    (f := fun b => { b with owner := .slot slot }) (fun _ => rfl) (fun _ => rfl) id
  exact howned.trans ((register_modifySlot _ slot _).trans ((register_detach _ id).trans hroomy))

theorem register_detachToFree {p : Point Float} (hok : c.detachToFree id p = (c', .ok ())) :
    c'.register = c.register := by
  obtain ⟨b, -, -, rfl⟩ := detachToFree_eq_ok hok
  change (if b.isFree then _ else _ : Canvas).register = c.register
  split
  · exact register_modify (f := fun b => { b with position := p }) (fun _ => rfl) (fun _ => rfl) id
  · exact (register_makeFree _ _ _).trans (register_detach _ _)

theorem register_attachConnector {head : BlockId} (hok : c.attachConnector id head = (c', .ok ())) :
    c'.register = c.register := by
  obtain ⟨-, -, -, -, rfl⟩ := attachConnector_eq_ok hok
  let g : Block → Block := fun b => { b with chain := (c.detach id).elseLast (b.chain ++ [id]) }
  have howned := register_modify (c := (c.detach id).modify head g)
    (f := fun b => { b with owner := .chain head }) (fun _ => rfl) (fun _ => rfl) id
  exact howned.trans ((register_modify (f := g) (fun _ => rfl) (fun _ => rfl) head).trans
    (register_detach c id))

end BlockCanvas.Canvas
