import BlockCanvas.Proofs.HitTesting
import BlockCanvas.Proofs.Packing

/-!
How the drawing of a canvas nests, with whole numbers for sizes and places. What is in a slot is drawn in it, slots
are drawn in their blocks and beside each other, and entries and connectors are stacked in their order. So two slots
of one tree are apart or one is below the other (`Canvas.Sited.apart_or_under`), and the deepest slot under a point
is the innermost (`Canvas.Reachable.nests`).
-/
namespace BlockCanvas

namespace Rect
variable {a b a' b' : Rect ℤ}

theorem Stacked.mono (h : a.Stacked b) (ha : a'.Inside a) (hax : a'.x = a.x) (hb : b'.Inside b) (hbx : b'.x = b.x) :
    a'.Stacked b' :=
  ⟨hax.trans (h.1.trans hbx.symm), h.2.mono ha hb⟩

theorem contains_of_mem_interior {p : Point ℤ} (hp : ⟨p.x, p.y⟩ ∈ a.interior) : a.contains p = true := by
  obtain ⟨hx, hx', hy, hy'⟩ := hp
  simp only [contains, Bool.and_eq_true, decide_eq_true_eq]
  exact ⟨⟨⟨(Int.cast_lt.1 hx).le, (Int.cast_lt.1 hx').le⟩, (Int.cast_lt.1 hy).le⟩, (Int.cast_lt.1 hy').le⟩

end Rect

theorem Site.rect_x (m : Metrics ℤ) (s : Site ℤ) : (s.rect m).x = (s.group m).x :=
  (s.group_x m).symm

namespace Canvas
variable {c : Canvas} {m : Metrics ℤ} {place : Root → Point ℤ} {s : Site ℤ} {x : BlockId}

namespace Sited

theorem host_mem_ids (h : c.Linked none) (hs : c.Sited m place s) {box : SlotBox ℤ}
    (hbox : box ∈ (s.geometry m).slots) : box.slot.host ∈ s.tree.ids := by
  have hslot := (hs.slots_perm h).mem_iff.1 (List.mem_map_of_mem hbox)
  obtain ⟨x, hx, haddress⟩ := List.mem_flatMap.1 hslot
  rwa [(mem_addresses_iff.1 haddress).1]

theorem apart_or_under_bay (h : c.Linked none) (hm : m.Roomy) (hs : c.Sited m place s) {bay : Bay ℤ}
    (hbay : bay ∈ s.bays m) {k : Site ℤ} (hk : k ∈ s.below m) {box : SlotBox ℤ}
    (hbox : box ∈ (k.geometry m).slots) : bay.box.rect.Apart box.rect ∨ c.Under box.slot bay.box.slot := by
  have hpacked := s.packed hm
  have hinside := k.slots_inside hm box hbox
  rcases List.mem_append.1 hk with hbays | hchain
  · obtain ⟨other, hother, hmem⟩ := List.mem_flatMap.1 hbays
    by_cases hsame : bay = other
    · subst hsame
      have hbelow : c.Sited m place k := .inner hs hk
      have hwithin := (hbelow.mem_ids_iff h).1 (hbelow.host_mem_ids h hbox)
      exact Or.inr ⟨k.tree.id, hs.owner?_of_mem_bay h hbay hmem, hwithin⟩
    · have hapart := Rect.Apart.of_pairwise hpacked.apart hbay hother hsame
      exact Or.inl (hapart.mono (.refl _) (hinside.trans ((hpacked.bays other hother).1.inside k hmem)))
  · exact Or.inl ((hpacked.connectors k hchain).2.2.apart.mono (hpacked.bays bay hbay).2 hinside)

theorem apart_or_under (h : c.Linked none) (hm : m.Roomy) (hs : c.Sited m place s) {a b : SlotBox ℤ}
    (ha : a ∈ (s.geometry m).slots) (hb : b ∈ (s.geometry m).slots) (hne : a ≠ b) :
    a.rect.Apart b.rect ∨ c.Under a.slot b.slot ∨ c.Under b.slot a.slot := by
  induction s using Site.induction m with
  | step s ih =>
    have hpacked := s.packed hm
    rcases List.mem_append.1 ((Site.slots_geometry m s).mem_iff.1 ha) with ha | ha <;>
      rcases List.mem_append.1 ((Site.slots_geometry m s).mem_iff.1 hb) with hb | hb
    · obtain ⟨bay, hbay, rfl⟩ := List.mem_map.1 ha
      obtain ⟨other, hother, rfl⟩ := List.mem_map.1 hb
      exact Or.inl (Rect.Apart.of_pairwise hpacked.apart hbay hother fun he => hne (congrArg Bay.box he))
    · obtain ⟨bay, hbay, rfl⟩ := List.mem_map.1 ha
      obtain ⟨k, hk, hb⟩ := List.mem_flatMap.1 hb
      exact (hs.apart_or_under_bay h hm hbay hk hb).imp_right Or.inr
    · obtain ⟨bay, hbay, rfl⟩ := List.mem_map.1 hb
      obtain ⟨k, hk, ha⟩ := List.mem_flatMap.1 ha
      exact (hs.apart_or_under_bay h hm hbay hk ha).imp Rect.Apart.symm Or.inl
    · obtain ⟨j, hj, ha⟩ := List.mem_flatMap.1 ha
      obtain ⟨k, hk, hb⟩ := List.mem_flatMap.1 hb
      by_cases hjk : j = k
      · subst hjk
        exact ih j hj (.inner hs hj) ha hb
      · have hapart := Rect.Apart.of_pairwise (s.pairwise_below hm) hj hk hjk
        exact Or.inl (hapart.mono (j.slots_inside hm a ha) (k.slots_inside hm b hb))

end Sited

/-! ### Blocks by the sites they are drawn from -/

def together (c : Canvas) (x : BlockId) : List BlockId :=
  x :: (c.block? x).elim [] Block.chain

namespace Sited

theorem map_id_bay (h : c.Linked none) (hs : c.Sited m place s) {bay : Bay ℤ} (hbay : bay ∈ s.bays m) :
    ∃ slot, c.slot? bay.box.slot = some slot ∧ bay.sites.map (fun k => k.tree.id) = slot.children := by
  obtain ⟨b, hb, -⟩ := hs.exists_block h
  obtain ⟨i, drawn, hdrawn, hslot, -, -, htrees, -⟩ := Site.exists_slot m hbay
  obtain ⟨-, hslots, -⟩ := block_of_tree? h hb (hs.tree? h)
  refine ⟨drawn.filterMap fun k => some k.id, ?_, ?_⟩
  · rw [hslot, slot?_eq hb, hslots, List.getElem?_map, hdrawn, Option.map_some]
  · rw [Slot.children_filterMap, ← htrees, List.filterMap_map]
    exact (congrFun List.filterMap_eq_map bay.sites).symm

theorem map_id_connectors (h : c.Linked none) (hs : c.Sited m place s) :
    (s.connectors m).map (fun k => k.tree.id) = (c.block? s.tree.id).elim [] Block.chain := by
  obtain ⟨b, hb, -⟩ := hs.exists_block h
  obtain ⟨-, -, hchain⟩ := block_of_tree? h hb (hs.tree? h)
  rw [hb, Option.elim_some, hchain, ← Site.map_tree_connectors m s, List.map_map]
  rfl

theorem exists_of_together (h : c.Linked none) (hm : m.Roomy) (hs : c.Sited m place s)
    (hx : x ∈ c.together s.tree.id) :
    ∃ rect, (c.drawing m place).blockRect? x = some rect ∧ rect.Inside (s.group m) ∧ rect.x = (s.group m).x := by
  have hpacked := s.packed hm
  rw [together, ← hs.map_id_connectors h] at hx
  rcases List.mem_cons.1 hx with rfl | hx
  · exact ⟨s.rect m, blockRect?_of_sited h hs, hpacked.inside, s.rect_x m⟩
  · obtain ⟨k, hk, rfl⟩ := List.mem_map.1 hx
    have hbelow : c.Sited m place k := .inner hs (Site.mem_below_of_mem_connectors m hk)
    obtain ⟨hinside, hstacked⟩ := hpacked.connectors k hk
    refine ⟨k.rect m, blockRect?_of_sited h hbelow, (k.packed hm).inside.trans hinside, ?_⟩
    rw [k.rect_x, ← hstacked.1, s.rect_x]

end Sited

def Stacks (g : Geometry ℤ) (x y : BlockId) : Prop :=
  ∃ a b, g.blockRect? x = some a ∧ g.blockRect? y = some b ∧ a.Stacked b ∧ a.interior ∩ b.interior = ∅

theorem sited_entries_stack (h : c.Linked none) (hm : m.Roomy) (hs : c.Sited m place s) {bay : Bay ℤ}
    (hbay : bay ∈ s.bays m) {slot : Slot BlockId} (hslot : c.slot? bay.box.slot = some slot) :
    slot.children.Pairwise fun x y =>
      ∀ u ∈ c.together x, ∀ v ∈ c.together y, Stacks (c.drawing m place) u v := by
  obtain ⟨slot', hslot', hids⟩ := hs.map_id_bay h hbay
  obtain rfl := Option.some.inj (hslot.symm.trans hslot')
  rw [← hids, List.pairwise_map]
  refine ((s.packed hm).bays bay hbay).1.stacked.imp_of_mem fun {j k} hj hk hjk u hu v hv => ?_
  have hinner : ∀ k ∈ bay.sites, c.Sited m place k := fun k hk => .inner hs (Site.mem_below_of_mem_bay m hbay hk)
  obtain ⟨a, ha, hainside, hax⟩ := (hinner j hj).exists_of_together h hm hu
  obtain ⟨b, hb, hbinside, hbx⟩ := (hinner k hk).exists_of_together h hm hv
  have hstacked := hjk.mono hainside hax hbinside hbx
  exact ⟨a, b, ha, hb, hstacked, hstacked.2.apart.inter_interior⟩

theorem sited_chain_stacks (h : c.Linked none) (hm : m.Roomy) (hs : c.Sited m place s) :
    (c.together s.tree.id).Pairwise (Stacks (c.drawing m place)) := by
  have hpacked := s.packed hm
  have hdrawn : ∀ k ∈ s.connectors m, (c.drawing m place).blockRect? k.tree.id = some (k.rect m) := fun k hk =>
    blockRect?_of_sited h (.inner hs (Site.mem_below_of_mem_connectors m hk))
  rw [together, ← hs.map_id_connectors h]
  refine List.pairwise_cons.2 ⟨fun y hy => ?_, ?_⟩
  · obtain ⟨k, hk, rfl⟩ := List.mem_map.1 hy
    have hstacked := (hpacked.connectors k hk).2.mono (.refl _) rfl (k.packed hm).inside (k.rect_x m)
    exact ⟨_, _, blockRect?_of_sited h hs, hdrawn k hk, hstacked, hstacked.2.apart.inter_interior⟩
  · rw [List.pairwise_map]
    refine hpacked.stacked.imp_of_mem fun {j k} hj hk hjk => ?_
    have hstacked := hjk.mono (j.packed hm).inside (j.rect_x m) (k.packed hm).inside (k.rect_x m)
    exact ⟨_, _, hdrawn j hj, hdrawn k hk, hstacked, hstacked.2.apart.inter_interior⟩

/-! ### The drawing of a canvas -/

/-- A geometry in which all that belongs to something is drawn in it, and all else apart. -/
structure Nests (c : Canvas) (g : Geometry ℤ) : Prop where
  solid : (∀ x rect, g.blockRect? x = some rect → rect.Solid) ∧ ∀ box ∈ g.slots, box.rect.Solid
  block : ∀ x slot, c.owner? x = some (.slot slot) → ∃ outer, g.slotRect? slot = some outer ∧
    ∀ u ∈ c.together x, ∃ inner, g.blockRect? u = some inner ∧ inner.Inside outer
  slot : ∀ slot, (c.slot? slot).isSome →
    ∃ inner outer, g.slotRect? slot = some inner ∧ g.blockRect? slot.host = some outer ∧ inner.Inside outer
  slots : ∀ i j host, i ≠ j → (c.slot? ⟨host, i⟩).isSome → (c.slot? ⟨host, j⟩).isSome →
    ∃ a b, g.slotRect? ⟨host, i⟩ = some a ∧ g.slotRect? ⟨host, j⟩ = some b ∧ a.interior ∩ b.interior = ∅
  entries : ∀ slot s, c.slot? slot = some s →
    s.children.Pairwise fun x y => ∀ u ∈ c.together x, ∀ v ∈ c.together y, Stacks g u v
  chain : ∀ x b, c.block? x = some b → (x :: b.chain).Pairwise (Stacks g)
  under : ∀ r ∈ c.roots, ∀ a ∈ g.slots, ∀ b ∈ g.slots, a.slot.host ∈ c.subtree r → b.slot.host ∈ c.subtree r →
    a.slot ≠ b.slot → (a.rect.interior ∩ b.rect.interior).Nonempty → c.Under a.slot b.slot ∨ c.Under b.slot a.slot
  innermost : ∀ r ∈ c.roots, ∀ a ∈ g.slots, ∀ b ∈ g.slots, a.slot.host ∈ c.subtree r → b.slot.host ∈ c.subtree r →
    ∀ p ∈ a.rect.interior ∩ b.rect.interior, b.depth ≤ a.depth → a.slot = b.slot ∨ c.Under a.slot b.slot
  hit : ∀ r ∈ c.roots, ∀ (p : Point ℤ) skip, ∀ a ∈ g.slots, g.slotAt? p skip = some a.slot →
    ∀ b ∈ g.slots, skip b.slot = false → a.slot.host ∈ c.subtree r → b.slot.host ∈ c.subtree r →
      ⟨p.x, p.y⟩ ∈ a.rect.interior ∩ b.rect.interior → a.slot = b.slot ∨ c.Under a.slot b.slot

theorem under_of_meet (h : c.Linked none) (hm : m.Roomy) {r : BlockId} (hr : r ∈ c.roots) {a b : SlotBox ℤ}
    (ha : a ∈ (c.drawing m place).slots) (hb : b ∈ (c.drawing m place).slots) (har : a.slot.host ∈ c.subtree r)
    (hbr : b.slot.host ∈ c.subtree r) (hne : a.slot ≠ b.slot)
    (hmeet : (a.rect.interior ∩ b.rect.interior).Nonempty) : c.Under a.slot b.slot ∨ c.Under b.slot a.slot := by
  obtain ⟨_, t, -, ht, hs⟩ := exists_root_sited h m place hr
  rw [subtree_of_tree? ht] at har hbr
  have hrelated := hs.apart_or_under h hm (hs.mem_slots h ha har) (hs.mem_slots h hb hbr)
    fun he => hne (congrArg SlotBox.slot he)
  exact hrelated.resolve_left fun hapart => hmeet.ne_empty hapart.inter_interior

theorem innermost_of_deepest (h : c.Linked none) (hm : m.Roomy) {r : BlockId} (hr : r ∈ c.roots) {a b : SlotBox ℤ}
    (ha : a ∈ (c.drawing m place).slots) (hb : b ∈ (c.drawing m place).slots) (har : a.slot.host ∈ c.subtree r)
    (hbr : b.slot.host ∈ c.subtree r) {p : Point ℚ} (hp : p ∈ a.rect.interior ∩ b.rect.interior)
    (hdepth : b.depth ≤ a.depth) : a.slot = b.slot ∨ c.Under a.slot b.slot := by
  by_cases hne : a.slot = b.slot
  · exact Or.inl hne
  · have hsurface := surface_drawing h m place
    rw [hsurface.depth b hb, hsurface.depth a ha] at hdepth
    exact Or.inr ((under_of_meet h hm hr ha hb har hbr hne ⟨p, hp⟩).resolve_right fun hu =>
      absurd (slotDepth_lt_of_under h hu) (Nat.not_lt_of_le hdepth))

theorem depth_le_of_hit (h : c.Linked none) {p : Point ℤ} {skip : SlotId → Bool} {a b : SlotBox ℤ}
    (ha : a ∈ (c.drawing m place).slots) (hhit : (c.drawing m place).slotAt? p skip = some a.slot)
    (hb : b ∈ (c.drawing m place).slots) (hskip : skip b.slot = false) (hp : b.rect.contains p = true) :
    b.depth ≤ a.depth := by
  rw [Geometry.slotAt?_eq] at hhit
  obtain ⟨box, hbox, hslot⟩ := Option.map_eq_some_iff.1 hhit
  obtain ⟨hmem, hmax⟩ := Geometry.mem_deepest_iff.1 (List.mem_of_getLast? hbox)
  obtain rfl := slots_injective h (List.mem_of_mem_filter hmem) ha hslot
  exact hmax b (List.mem_filter.2 ⟨hb, by simp [hp, hskip]⟩)

theorem exists_sited_host (h : c.Linked none) (m : Metrics ℤ) (place : Root → Point ℤ) {slot : SlotId}
    (hslot : (c.slot? slot).isSome) : ∃ s, c.Sited m place s ∧ s.tree.id = slot.host := by
  obtain ⟨content, hslot⟩ := Option.isSome_iff_exists.1 hslot
  obtain ⟨b, hb, -⟩ := exists_of_slot? hslot
  exact exists_sited h m place hb

theorem Sited.slotRect?_of_mem (h : c.Linked none) (hs : c.Sited m place s) {bay : Bay ℤ} (hbay : bay ∈ s.bays m) :
    (c.drawing m place).slotRect? bay.box.slot = some bay.box.rect :=
  slotRect?_of_mem_slots h (mem_slots_of_sited hs hbay)

theorem nests_drawing (h : c.Linked none) (hm : m.Roomy) (place : Root → Point ℤ) :
    c.Nests (c.drawing m place) where
  solid := by
    refine ⟨fun x rect hrect => ?_, fun box hbox => ?_⟩
    · have hlive : ((c.drawing m place).blockRect? x).isSome = (c.block? x).isSome := blockRect?_isSome h
      rw [hrect, Option.isSome_some] at hlive
      obtain ⟨b, hb⟩ := Option.isSome_iff_exists.1 hlive.symm
      obtain ⟨s, hs, rfl⟩ := exists_sited h m place hb
      obtain rfl := Option.some.inj (hrect.symm.trans (blockRect?_of_sited h hs))
      exact (s.packed hm).solid
    · obtain ⟨s, bay, -, hbay, rfl⟩ := exists_bay_of_mem_slots h hbox
      exact ((s.packed hm).bays bay hbay).1.solid
  block x slot hx := by
    obtain ⟨a, ha, -⟩ := h.exists_of_above (above_of_owner? hx rfl)
    obtain ⟨s, hs, hid⟩ := exists_sited h m place ha
    obtain ⟨bay, hbay, rfl, k, hk, rfl⟩ := hs.exists_of_slot h hid.symm hx
    have hbelow : c.Sited m place k := .inner hs (Site.mem_below_of_mem_bay m hbay hk)
    refine ⟨_, hs.slotRect?_of_mem h hbay, fun u hu => ?_⟩
    obtain ⟨inner, hinner, hinside, -⟩ := hbelow.exists_of_together h hm hu
    exact ⟨inner, hinner, hinside.trans (((s.packed hm).bays bay hbay).1.inside k hk)⟩
  slot slot hslot := by
    obtain ⟨s, hs, hid⟩ := exists_sited_host h m place hslot
    obtain ⟨content, hcontent⟩ := Option.isSome_iff_exists.1 hslot
    obtain ⟨bay, hbay, rfl⟩ := hs.exists_bay h hcontent hid.symm
    exact ⟨_, _, hs.slotRect?_of_mem h hbay, hid ▸ blockRect?_of_sited h hs, ((s.packed hm).bays bay hbay).2⟩
  slots i j host hne hi hj := by
    obtain ⟨s, hs, hid⟩ := exists_sited_host h m place hi
    obtain ⟨content, hi⟩ := Option.isSome_iff_exists.1 hi
    obtain ⟨content', hj⟩ := Option.isSome_iff_exists.1 hj
    obtain ⟨bay, hbay, hslot⟩ := hs.exists_bay h hi hid.symm
    obtain ⟨other, hother, hslot'⟩ := hs.exists_bay h hj hid.symm
    have hbays : bay ≠ other := by
      rintro rfl
      exact hne (SlotId.mk.inj (hslot.symm.trans hslot')).2
    exact ⟨_, _, hslot ▸ hs.slotRect?_of_mem h hbay, hslot' ▸ hs.slotRect?_of_mem h hother,
      (Rect.Apart.of_pairwise (s.packed hm).apart hbay hother hbays).inter_interior⟩
  entries slot content hslot := by
    obtain ⟨s, hs, hid⟩ := exists_sited_host h m place (Option.isSome_iff_exists.2 ⟨_, hslot⟩)
    obtain ⟨bay, hbay, rfl⟩ := hs.exists_bay h hslot hid.symm
    exact sited_entries_stack h hm hs hbay hslot
  chain x b hb := by
    obtain ⟨s, hs, rfl⟩ := exists_sited h m place hb
    have hstacks := sited_chain_stacks h hm hs
    rwa [together, hb, Option.elim_some] at hstacks
  under r hr a ha b hb har hbr := under_of_meet h hm hr ha hb har hbr
  innermost r hr a ha b hb har hbr p hp := innermost_of_deepest h hm hr ha hb har hbr hp
  hit r hr p skip a ha hhit b hb hskip har hbr hp := by
    have hdepth := depth_le_of_hit h ha hhit hb hskip (Rect.contains_of_mem_interior hp.2)
    exact innermost_of_deepest h hm hr ha hb har hbr hp hdepth

/-- On every canvas that edits lead to the drawing nests, wherever its free blocks stand. -/
theorem Reachable.nests (h : c.Reachable) (place : Root → Point ℤ) :
    c.Nests (c.drawing (.standard Int.ofNat) place) :=
  nests_drawing h.sound.toLinked Metrics.roomy_standard place

theorem nests_branching :
    let c := Edit.run empty
      [.instantiate .print .origin, .instantiate .whileLoop ⟨7, 9⟩, .instantiateInto .ifBranch ⟨2, 1⟩,
        .instantiate .elifBranch .origin, .attachConnector 4 3, .instantiateInto .operation ⟨4, 0⟩,
        .instantiateInto .print ⟨2, 1⟩]
    let g := c.drawing (.standard Int.ofNat) fun r => if r.tree.id = 1 then ⟨10, 20⟩ else ⟨-7, 100⟩
    g.slotRect? ⟨2, 1⟩ = some ⟨17, 132, 290, 152⟩ ∧ g.blockRect? 3 = some ⟨17, 132, 160, 56⟩ ∧
      g.blockRect? 4 = some ⟨17, 188, 290, 64⟩ ∧ g.blockRect? 6 = some ⟨17, 252, 160, 32⟩ ∧
      g.slotAt? ⟨150, 200⟩ (fun _ => false) = some ⟨5, 0⟩ ∧ c.Reachable ∧ c.Nests g := by
  intro c g
  have hc : c.Reachable := Reachable.run (.start _) _
  exact ⟨by decide +kernel, by decide +kernel, by decide +kernel, by decide +kernel, by decide +kernel, hc,
    Reachable.nests hc _⟩

end Canvas
end BlockCanvas
