import BlockCanvas.Proofs.ProgramRecast
import BlockCanvas.Proofs.Reachable

/-!
The program of a canvas depends on its forest alone. Two canvases whose blocks show and hold the same, under
other ids, have the same program, text and variables (`Canvas.Reachable.program_alike`), wherever their blocks
lie, whatever was done before, and whatever the next id is.
-/
namespace BlockCanvas

theorem Slot.ext_of_map {β : Type} {slots slots' : List (Slot β)}
    (hname : slots'.map Slot.name = slots.map Slot.name)
    (hcontent : slots'.map Slot.content = slots.map Slot.content) : slots' = slots := by
  induction slots generalizing slots' with
  | nil => exact List.map_eq_nil_iff.1 hname
  | cons s slots ih =>
    obtain ⟨s', slots', rfl, hs, hname'⟩ := List.map_eq_cons_iff.1 hname
    obtain ⟨hs', hcontent'⟩ := List.cons.inj hcontent
    have hhead : s' = s := by
      cases s
      cases s'
      rw [Slot.mk.injEq]
      exact ⟨hs, hs'⟩
    rw [hhead, ih hname' hcontent']

theorem Content.map_self {β : Type} (content : Content β) : (content.map fun b => b) = content := by
  cases content with
  | value child literal => exact congrArg (Content.value · literal) Option.map_id'
  | body entries =>
    have hentry : (Entry.map fun b => b : Entry β → Entry β) = id := by
      funext e
      cases e <;> rfl
    rw [Content.map, hentry, List.map_id]

namespace Canvas
variable {c c' : Canvas} {f : BlockId → BlockId} {x : BlockId} {b : Block}

/-- The second canvas has the blocks of the first under other ids: what they show, what their slots hold,
their chains, and the order of the free ones. Nothing else of it matters, not even whether it has more blocks. -/
structure Alike (c c' : Canvas) (f : BlockId → BlockId) : Prop where
  roots : c'.roots = c.roots.map f
  blocks : ∀ b ∈ c.blocks, ∃ b' ∈ c'.blocks, b'.id = f b.id ∧ b'.toFace = b.toFace ∧
    b'.slots.map Slot.content = b.slots.map (fun s => s.content.map f) ∧ b'.chain = b.chain.map f

namespace Alike

theorem exists_block? (h : c.Alike c' f) (hc : c.Sound none) (hc' : c'.Sound none)
    (hb : c.block? x = some b) :
    ∃ b', c'.block? (f x) = some b' ∧ b'.id = f b.id ∧ b'.toFace = b.toFace ∧
      b'.slots = b.slots.map (Slot.map f) ∧ b'.chain = b.chain.map f := by
  have hmem := mem_of_block? hb
  obtain ⟨b', hmem', hid, hface, hcontents, hchain⟩ := h.blocks b hmem
  have hkind : b'.kind = b.kind := congrArg Face.kind hface
  have hsignature : b'.slots.map Slot.signature = b.slots.map Slot.signature := by
    rw [(hc'.typed b' hmem').slots, (hc.typed b hmem).slots, hkind]
  have hnames : b'.slots.map Slot.name = (b.slots.map (Slot.map f)).map Slot.name := by
    have hfirst := congrArg (List.map Prod.fst) hsignature
    rw [List.map_map, List.map_map] at hfirst
    rw [List.map_map]
    exact hfirst
  have hslots : b'.slots = b.slots.map (Slot.map f) :=
    Slot.ext_of_map hnames (by rw [hcontents, List.map_map]; rfl)
  rw [← id_of_block? hb, ← hid]
  exact ⟨b', block?_of_mem hc'.ascending hmem', rfl, hface, hslots, hchain⟩

theorem tree? (h : c.Alike c' f) (hc : c.Sound none) (hc' : c'.Sound none) (hb : c.block? x = some b) :
    c'.tree? (f x) = (c.tree? x).map (Tree.recast f id) := by
  suffices hall : ∀ x b, c.block? x = some b → c'.tree? (f x) = (c.tree? x).map (Tree.recast f id) from
    hall x b hb
  refine induction_down hc.toLinked fun x b hb ih => ?_
  obtain ⟨b', hb', hid, hface, hslots, hchain⟩ := h.exists_block? hc hc' hb
  have hslot : ∀ s ∈ b.slots, (Slot.filterMap c'.tree? ∘ Slot.map f) s =
      (Slot.map (Tree.recast f id) ∘ Slot.filterMap c.tree?) s := by
    intro s hs
    rw [Function.comp_apply, Function.comp_apply, Slot.map_eq_filterMap, Slot.filterMap_filterMap,
      Slot.map_eq_filterMap, Slot.filterMap_filterMap]
    refine Slot.filterMap_congr fun k hk => ?_
    rw [Option.bind_some, ih k (Block.mem_owned.2 (.inl ⟨s, hs, hk⟩)), Option.map_eq_bind]
    rfl
  have hnext : ∀ k ∈ b.chain, (c'.tree? ∘ f) k = (c.tree? k).map (Tree.recast f id) :=
    fun k hk => ih k (Block.mem_owned.2 (.inr hk))
  rw [tree?_eq hc'.toLinked, tree?_eq hc.toLinked, hb, hb', Option.map_some, Option.map_some, Option.map_some,
    Tree.recast_node, hid, hface, hslots, hchain, List.map_map, List.map_map, List.filterMap_map,
    List.map_filterMap, List.map_congr_left hslot, List.filterMap_congr hnext]
  rfl

theorem trees (h : c.Alike c' f) (hc : c.Sound none) (hc' : c'.Sound none) :
    c'.forest.map Root.tree = (c.forest.map Root.tree).map (Tree.recast f id) := by
  have hroot : ∀ x ∈ c.roots, (c'.root? (f x)).map Root.tree =
      ((c.root? x).map Root.tree).map (Tree.recast f id) := by
    intro x hx
    obtain ⟨b, hb, -⟩ := Linked.exists_block_of_owner? (hc.owner?_of_mem_listed (o := .free) hx)
    obtain ⟨b', hb', -⟩ := h.exists_block? hc hc' hb
    rw [root?, root?, hb, hb', h.tree? hc hc' hb]
    cases c.tree? x <;> rfl
  rw [forest, forest, h.roots, List.filterMap_map, List.map_filterMap, List.map_filterMap, List.map_filterMap]
  exact List.filterMap_congr hroot

end Alike

theorem contents_self (slots : List (Slot BlockId)) :
    slots.map Slot.content = slots.map fun s => s.content.map fun x => x :=
  List.map_congr_left fun s _ => (Content.map_self s.content).symm

theorem Alike.refl (c : Canvas) : c.Alike c fun x => x where
  roots := (List.map_id _).symm
  blocks b hb := ⟨b, hb, rfl, rfl, contents_self b.slots, (List.map_id _).symm⟩

theorem alike_reposition (c : Canvas) (id : BlockId) (position : Point Float) :
    c.Alike (c.modify id fun b => { b with position }) fun x => x where
  roots := (List.map_id _).symm
  blocks b hb := by
    have hmem : (if b.id == id then { b with position } else b) ∈
        (c.modify id fun b => { b with position }).blocks := List.mem_map_of_mem hb
    have hchain : b.chain = b.chain.map fun x => x := (List.map_id _).symm
    refine ⟨_, hmem, ?_⟩
    split
    · exact ⟨rfl, rfl, contents_self b.slots, hchain⟩
    · exact ⟨rfl, rfl, contents_self b.slots, hchain⟩

theorem alike_detachToFree {id : BlockId} (hfree : c.owner? id = some .free) (p : Point Float) :
    c.Alike (c.detachToFree id p).1 fun x => x := by
  obtain ⟨b, hb, howner⟩ := Linked.exists_block_of_owner? hfree
  have hisFree : b.isFree = true := by rw [Block.isFree, howner]; rfl
  rw [detachToFree, hb]
  simp only [hisFree, if_true]
  split
  · exact .refl c
  · have halike := alike_reposition c id p
    exact ⟨halike.roots, halike.blocks⟩

/-- The program is the same for all canvases that are alike. -/
theorem Reachable.program_alike (h : c.Reachable) :
    (∀ c' f, c'.Reachable → c.Alike c' f → ∀ o, c'.program o = c.program o) ∧
      (∀ id p, c.owner? id = some .free → ∀ o, (c.detachToFree id p).1.program o = c.program o) ∧
        ∀ bounds discardZone o, { c with bounds, discardZone }.program o = c.program o := by
  have halike : ∀ c' f, c'.Reachable → c.Alike c' f → ∀ o, c'.program o = c.program o := by
    intro c' f hc' halike o
    rw [program, program, halike.trees h.sound hc'.sound, Python.programOf_recast]
  refine ⟨halike, fun id p hfree => ?_, fun bounds discardZone o => ?_⟩
  · exact halike _ _ (.edit (.detachToFree id p) h) (alike_detachToFree hfree p)
  · have hforest : { c with bounds, discardZone }.forest = c.forest := forest_congr rfl rfl
    rw [program, hforest, program]

theorem program_alike_branching :
    let c := Edit.run empty [.instantiate .ifBranch ⟨10, 20⟩, .instantiate .elseBranch .origin,
      .attachConnector 2 1, .instantiateInto .print ⟨2, 0⟩]
    let c' := Edit.run (withBounds ⟨0, 0, 800, 600⟩) [.instantiate .print .origin,
      .instantiate .elseBranch .origin, .instantiateInto .print ⟨2, 0⟩, .discard 1,
      .instantiate .ifBranch ⟨70, 80⟩, .attachConnector 2 4]
    c.roots = [1] ∧ c'.roots = [4] ∧ c'.program {} = c.program {} := by
  intro c c'
  have hc : c.Reachable := Reachable.run (.start _) _
  have hc' : c'.Reachable := Reachable.run (.start _) _
  have halike : c.Alike c' fun x => if x = 1 then 4 else x := ⟨by decide, by decide +kernel⟩
  exact ⟨by decide, by decide, (Reachable.program_alike hc).1 c' _ hc' halike {}⟩

end Canvas
end BlockCanvas
