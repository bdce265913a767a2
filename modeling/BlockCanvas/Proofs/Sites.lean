import BlockCanvas.Proofs.Drawing
import BlockCanvas.Proofs.Growth
import BlockCanvas.Proofs.Lineage
import BlockCanvas.Proofs.Traversal

/-!
The sites of a canvas. Every block is drawn from one site, that of its owner's bay or chain or a place of its own
(`exists_sited`), and what is drawn there is part of the geometry of the canvas. No block and no slot is drawn
twice, so a look-up in the geometry finds what the site of the block gives (`blockRect?_of_sited`,
`slotRect?_of_mem_slots`).
-/
namespace BlockCanvas

/-! ### Look-ups -/

theorem lookup_eq_some_iff {α β : Type} [BEq α] [LawfulBEq α] {entries : List (α × β)}
    (h : (entries.map Prod.fst).Nodup) {key : α} {value : β} :
    entries.lookup key = some value ↔ (key, value) ∈ entries := by
  induction entries with
  | nil => simp
  | cons e entries ih =>
    obtain ⟨k, v⟩ := e
    rw [List.map_cons, List.nodup_cons] at h
    by_cases hk : key = k
    · subst hk
      have hnot : (key, value) ∉ entries := fun hm => h.1 (List.mem_map.2 ⟨_, hm, rfl⟩)
      simp [hnot, eq_comm]
    · simp only [List.lookup_cons, beq_eq_false_iff_ne.2 hk, ih h.2, List.mem_cons, Prod.mk.injEq, hk, false_and,
        false_or]

theorem find?_eq_some_iff_of_nodup {α β : Type} [BEq β] [LawfulBEq β] {key : α → β} {xs : List α}
    (h : (xs.map key).Nodup) {k : β} {x : α} :
    (xs.find? fun x => key x == k) = some x ↔ x ∈ xs ∧ key x = k := by
  induction xs with
  | nil => simp
  | cons y xs ih =>
    rw [List.map_cons, List.nodup_cons] at h
    by_cases hy : key y = k
    · have hnot : ∀ x ∈ xs, key x ≠ k := fun x hx he => h.1 (hy ▸ he ▸ List.mem_map_of_mem hx)
      rw [List.find?_cons_of_pos (by simpa using hy), Option.some.injEq, List.mem_cons]
      constructor
      · rintro rfl
        exact ⟨Or.inl rfl, hy⟩
      · rintro ⟨rfl | hx, hk⟩
        · rfl
        · exact absurd hk (hnot x hx)
    · rw [List.find?_cons_of_neg (by simpa using hy), ih h.2, List.mem_cons]
      constructor
      · exact fun hx => ⟨Or.inr hx.1, hx.2⟩
      · rintro ⟨rfl | hx, hk⟩
        · exact absurd hk hy
        · exact ⟨hx, hk⟩

namespace Canvas
variable {α : Type} [Add α] [Sub α] [LE α] [DecidableLE α] {m : Metrics α} {place : Root → Point α}
variable {c : Canvas} {s k : Site α} {bay : Bay α} {x : BlockId}

def drawing (c : Canvas) (m : Metrics α) (place : Root → Point α) : Geometry α :=
  Geometry.ofForest m (c.forest.map fun r => (place r, r.tree))

theorem geometry_eq_drawing (c : Canvas) : c.geometry = c.drawing (.standard Float.ofNat) Root.position :=
  rfl

def rootSite (place : Root → Point α) (r : Root) : Site α :=
  ⟨place r, 0, r.tree⟩

inductive Sited (c : Canvas) (m : Metrics α) (place : Root → Point α) : Site α → Prop
  | root {r : Root} : r ∈ c.forest → Sited c m place (rootSite place r)
  | inner {s k : Site α} : Sited c m place s → k ∈ s.below m → Sited c m place k

theorem drawing_eq (c : Canvas) (m : Metrics α) (place : Root → Point α) :
    c.drawing m place = Geometry.concat (c.forest.map fun r => (rootSite place r).geometry m) := by
  rw [drawing]
  induction c.forest with
  | nil => rfl
  | cons r rest ih => exact congrArg (_ ++ ·) ih

namespace Sited

theorem sublist_slots (hs : c.Sited m place s) : (s.geometry m).slots.Sublist (c.drawing m place).slots := by
  induction hs with
  | root hr =>
    rw [drawing_eq]
    exact Site.sublist_of_mem_flatMap (f := Geometry.slots)
      (List.mem_map_of_mem (f := fun r => (rootSite place r).geometry m) hr)
  | inner _ hk ih => exact (Site.sublist_of_mem_below m hk).trans ih

theorem subset_blocks (hs : c.Sited m place s) : (s.geometry m).blocks ⊆ (c.drawing m place).blocks := by
  induction hs with
  | @root r hr =>
    rw [drawing_eq]
    intro e he
    exact List.mem_flatMap.2 ⟨_, List.mem_map_of_mem (f := fun r => (rootSite place r).geometry m) hr, he⟩
  | inner _ hk ih =>
    intro e he
    refine ih ((Site.blocks_geometry m _).mem_iff.2 (List.mem_cons_of_mem _ ?_))
    exact List.mem_flatMap.2 ⟨_, hk, he⟩

/-! ### The tree and the owner of a site -/

theorem tree? (h : c.Linked none) (hs : c.Sited m place s) : c.tree? s.tree.id = some s.tree := by
  induction hs with
  | @root r hr =>
    obtain ⟨b, -, -, -, ht⟩ := (mem_forest_iff h).1 hr
    change c.tree? r.tree.id = some r.tree
    rw [id_of_tree? h ht, ht]
  | @inner s k _ hk ih =>
    obtain ⟨b, hb, -⟩ := exists_block_of_tree? h ih
    have hmem := Site.tree_mem_children m hk
    rw [children_of_tree? h hb ih] at hmem
    obtain ⟨y, -, hy⟩ := List.mem_filterMap.1 hmem
    rw [id_of_tree? h hy, hy]

theorem exists_block (h : c.Linked none) (hs : c.Sited m place s) :
    ∃ b, c.block? s.tree.id = some b ∧ s.tree.slots = b.slots.map (Slot.filterMap c.tree?) ∧
      s.tree.chain = b.chain.filterMap c.tree? := by
  obtain ⟨b, hb, ht⟩ := exists_block_of_tree? h (hs.tree? h)
  exact ⟨b, hb, congrArg Tree.slots ht, congrArg Tree.chain ht⟩

theorem mem_ids_iff (h : c.Linked none) (hs : c.Sited m place s) : x ∈ s.tree.ids ↔ c.Within x s.tree.id :=
  mem_ids_of_tree? h (hs.tree? h)

theorem exists_slot (h : c.Linked none) (hs : c.Sited m place s) (hbay : bay ∈ s.bays m) :
    ∃ slot, c.slot? bay.box.slot = some slot ∧ bay.box.slot.host = s.tree.id ∧ bay.box.shape = slot.shape ∧
      bay.box.depth = s.depth ∧ bay.sites.map Site.tree = slot.children.filterMap c.tree? ∧
      ∀ k ∈ bay.sites, k.depth = s.depth + 1 := by
  obtain ⟨b, hb, hslots, -⟩ := hs.exists_block h
  obtain ⟨i, drawn, hdrawn, hslot, hshape, hdepth, htrees, hdepths⟩ := Site.exists_slot m hbay
  rw [hslots, List.getElem?_map] at hdrawn
  obtain ⟨slot, hi, rfl⟩ := Option.map_eq_some_iff.1 hdrawn
  rw [Slot.children_filterMap] at htrees
  refine ⟨slot, ?_, by rw [hslot], ?_, hdepth, htrees, hdepths⟩
  · rw [hslot, slot?_eq hb, hi]
  · exact hshape.trans (Content.shape_filterMap c.tree? slot.content)

theorem exists_bay (h : c.Linked none) (hs : c.Sited m place s) {place : SlotId} {slot : Slot BlockId}
    (hslot : c.slot? place = some slot) (hhost : place.host = s.tree.id) :
    ∃ bay ∈ s.bays m, bay.box.slot = place := by
  obtain ⟨b, hb, hslots, -⟩ := hs.exists_block h
  obtain ⟨b', hb', hi⟩ := exists_of_slot? hslot
  obtain rfl := Option.some.inj (hb.symm.trans (hhost ▸ hb'))
  have htree : s.tree.slots[place.index]? = some (slot.filterMap c.tree?) := by
    rw [hslots, List.getElem?_map, hi, Option.map_some]
  obtain ⟨bay, hbay, hbox, -⟩ := Site.exists_bay m htree
  exact ⟨bay, List.mem_of_getElem? hbay, hbox.trans (by rw [← hhost])⟩

theorem owner?_of_mem_bay (h : c.Linked none) (hs : c.Sited m place s) (hbay : bay ∈ s.bays m)
    (hk : k ∈ bay.sites) : c.owner? k.tree.id = some (.slot bay.box.slot) := by
  obtain ⟨slot, hslot, -, -, -, htrees, -⟩ := hs.exists_slot h hbay
  have hmem : k.tree ∈ slot.children.filterMap c.tree? := htrees ▸ List.mem_map_of_mem hk
  obtain ⟨y, hy, ht⟩ := List.mem_filterMap.1 hmem
  rw [id_of_tree? h ht]
  exact h.owner?_of_mem_listed (by rw [listed, hslot]; exact hy)

theorem owner?_of_mem_connectors (h : c.Linked none) (hs : c.Sited m place s) (hk : k ∈ s.connectors m) :
    c.owner? k.tree.id = some (.chain s.tree.id) := by
  obtain ⟨b, hb, -, hchain⟩ := hs.exists_block h
  have hmem : k.tree ∈ b.chain.filterMap c.tree? := by
    rw [← hchain, ← Site.map_tree_connectors m s]
    exact List.mem_map_of_mem hk
  obtain ⟨y, hy, ht⟩ := List.mem_filterMap.1 hmem
  rw [id_of_tree? h ht]
  exact h.owner?_of_mem_listed ((mem_listed_chain hb).2 hy)

theorem exists_of_slot (h : c.Linked none) (hs : c.Sited m place s) {slot : SlotId}
    (hhost : slot.host = s.tree.id) (hx : c.owner? x = some (.slot slot)) :
    ∃ bay ∈ s.bays m, bay.box.slot = slot ∧ ∃ k ∈ bay.sites, k.tree.id = x := by
  have hlisted := h.mem_listed_of_owner? hx
  obtain ⟨place, hplace, hm⟩ : ∃ place, c.slot? slot = some place ∧ x ∈ place.children := by
    rw [listed] at hlisted
    cases hp : c.slot? slot with
    | none => simp [hp] at hlisted
    | some place => exact ⟨place, rfl, by simpa [hp] using hlisted⟩
  obtain ⟨bay, hbay, hbox⟩ := hs.exists_bay h hplace hhost
  obtain ⟨place', hplace', -, -, -, htrees, -⟩ := hs.exists_slot h hbay
  rw [hbox, hplace, Option.some.injEq] at hplace'
  subst hplace'
  obtain ⟨b, hb, -⟩ := Linked.exists_block_of_owner? hx
  obtain ⟨t, ht⟩ := exists_tree? h hb
  obtain ⟨k, hk, rfl⟩ := List.mem_map.1 (htrees ▸ List.mem_filterMap.2 ⟨x, hm, ht⟩)
  exact ⟨bay, hbay, hbox, k, hk, id_of_tree? h ht⟩

theorem exists_of_chain (h : c.Linked none) (hs : c.Sited m place s)
    (hx : c.owner? x = some (.chain s.tree.id)) : ∃ k ∈ s.connectors m, k.tree.id = x := by
  obtain ⟨b, hb, -, hchain⟩ := hs.exists_block h
  have hm := (mem_listed_chain hb).1 (h.mem_listed_of_owner? hx)
  obtain ⟨a, ha, -⟩ := Linked.exists_block_of_owner? hx
  obtain ⟨t, ht⟩ := exists_tree? h ha
  have hmem : t ∈ s.tree.chain := hchain ▸ List.mem_filterMap.2 ⟨x, hm, ht⟩
  rw [← Site.map_tree_connectors m s] at hmem
  obtain ⟨k, hk, rfl⟩ := List.mem_map.1 hmem
  exact ⟨k, hk, id_of_tree? h ht⟩

end Sited

theorem exists_root_sited (h : c.Linked none) (m : Metrics α) (place : Root → Point α) (hx : x ∈ c.roots) :
    ∃ b t, c.block? x = some b ∧ c.tree? x = some t ∧ c.Sited m place (rootSite place ⟨b.position, t⟩) := by
  obtain ⟨b, t, hb, -, ht, hroot⟩ := exists_root? h hx
  exact ⟨b, t, hb, ht, .root (List.mem_filterMap.2 ⟨x, hx, hroot⟩)⟩

theorem exists_sited (h : c.Linked none) (m : Metrics α) (place : Root → Point α) {b : Block}
    (hb : c.block? x = some b) : ∃ s, c.Sited m place s ∧ s.tree.id = x := by
  induction x using induction_up h generalizing b with
  | step x ih =>
    have howner : c.owner? x = some b.owner := by rw [owner?, hb, Option.map_some]
    have hhost : ∀ host, b.owner.host? = some host → ∃ s, c.Sited m place s ∧ s.tree.id = host := by
      intro host hh
      have habove := above_of_owner? howner hh
      obtain ⟨a, ha, -⟩ := h.exists_of_above habove
      exact ih host habove ha
    cases ho : b.owner with
    | free =>
      have hx : x ∈ c.roots := h.mem_listed_of_owner? (o := .free) (howner.trans (congrArg some ho))
      obtain ⟨b', t, -, ht, hs⟩ := exists_root_sited h m place hx
      exact ⟨_, hs, id_of_tree? h ht⟩
    | slot slot =>
      obtain ⟨s, hs, hid⟩ := hhost slot.host (by rw [ho]; rfl)
      obtain ⟨bay, hbay, -, k, hk, hx⟩ := hs.exists_of_slot h hid.symm (howner.trans (congrArg some ho))
      exact ⟨k, .inner hs (Site.mem_below_of_mem_bay m hbay hk), hx⟩
    | chain head =>
      obtain ⟨s, hs, rfl⟩ := hhost head (by rw [ho]; rfl)
      obtain ⟨k, hk, hx⟩ := hs.exists_of_chain h (howner.trans (congrArg some ho))
      exact ⟨k, .inner hs (Site.mem_below_of_mem_connectors m hk), hx⟩

/-! ### What a look-up finds -/

def addresses (c : Canvas) (x : BlockId) : List SlotId :=
  (List.range ((c.block? x).elim 0 fun b => b.slots.length)).map (SlotId.mk x)

theorem mem_addresses_iff {slot : SlotId} : slot ∈ c.addresses x ↔ slot.host = x ∧ (c.slot? slot).isSome := by
  obtain ⟨host, index⟩ := slot
  rw [addresses, List.mem_map]
  constructor
  · rintro ⟨i, hi, he⟩
    obtain ⟨rfl, rfl⟩ := SlotId.mk.inj he
    cases hb : c.block? x with
    | none => simp [hb] at hi
    | some b => simpa [hb, slot?_eq hb] using hi
  · rintro ⟨rfl, hs⟩
    obtain ⟨s, hs⟩ := Option.isSome_iff_exists.1 hs
    obtain ⟨b, hb, hi⟩ := exists_of_slot? hs
    obtain ⟨hlt, -⟩ := List.getElem?_eq_some_iff.1 hi
    exact ⟨index, by simpa [hb] using hlt, rfl⟩

theorem nodup_addresses (c : Canvas) (x : BlockId) : (c.addresses x).Nodup :=
  List.nodup_range.map fun _ _ he => (SlotId.mk.inj he).2

theorem mem_traverse_addresses_iff (h : c.Linked none) {slot : SlotId} :
    slot ∈ c.traverse.flatMap c.addresses ↔ (c.slot? slot).isSome := by
  rw [List.mem_flatMap]
  constructor
  · rintro ⟨x, -, hx⟩
    exact (mem_addresses_iff.1 hx).2
  · intro hs
    refine ⟨slot.host, (mem_traverse_iff h).2 ?_, mem_addresses_iff.2 ⟨rfl, hs⟩⟩
    obtain ⟨s, hs⟩ := Option.isSome_iff_exists.1 hs
    obtain ⟨b, hb, -⟩ := exists_of_slot? hs
    exact ⟨b, mem_of_block? hb, id_of_block? hb⟩

theorem nodup_traverse_addresses (h : c.Linked none) : (c.traverse.flatMap c.addresses).Nodup := by
  refine List.nodup_flatMap.2 ⟨fun x _ => c.nodup_addresses x, (nodup_traverse h).imp fun {x y} hne => ?_⟩
  intro slot hx hy
  exact hne ((mem_addresses_iff.1 hx).1.symm.trans (mem_addresses_iff.1 hy).1)

namespace Sited

theorem map_slot_bays (h : c.Linked none) (hs : c.Sited m place s) :
    (s.bays m).map (fun bay => bay.box.slot) = c.addresses s.tree.id := by
  obtain ⟨b, hb, hslots, -⟩ := hs.exists_block h
  refine List.ext_getElem? fun i => ?_
  rw [List.getElem?_map, addresses, hb, Option.elim_some, List.getElem?_map]
  cases hi : s.tree.slots[i]? with
  | none =>
    rw [Site.getElem?_bays, hi, Option.map_none, Option.map_none, List.getElem?_eq_none, Option.map_none]
    simpa [hslots] using hi
  | some slot =>
    obtain ⟨bay, hbay, hslot, -⟩ := Site.exists_bay m hi
    obtain ⟨hlt, -⟩ := List.getElem?_eq_some_iff.1 hi
    rw [hbay, Option.map_some, hslot, List.getElem?_range (by simpa [hslots] using hlt), Option.map_some]

theorem slots_perm (h : c.Linked none) (hs : c.Sited m place s) :
    ((s.geometry m).slots.map SlotBox.slot).Perm (s.tree.ids.flatMap c.addresses) := by
  induction s using Site.induction m with
  | step s ih =>
    refine ((Site.slots_geometry m s).map SlotBox.slot).trans ?_
    rw [List.map_append, List.map_map, List.map_flatMap, Tree.ids_eq, List.flatMap_cons, ← Site.map_tree_below m s,
      List.flatMap_map, List.flatMap_assoc, ← hs.map_slot_bays h]
    exact (List.Perm.flatMap_left _ fun k hk => ih k hk (.inner hs hk)).append_left _

end Sited

theorem blocks_perm (h : c.Linked none) (m : Metrics α) (place : Root → Point α) :
    ((c.drawing m place).blocks.map Prod.fst).Perm c.traverse := by
  rw [drawing_eq, ← flatMap_ids_forest h]
  change (List.map _ (List.flatMap _ (List.map _ _))).Perm _
  rw [List.flatMap_map, List.map_flatMap]
  exact List.Perm.flatMap_left _ fun r _ => Site.ids_geometry m (rootSite place r)

theorem slots_perm (h : c.Linked none) (m : Metrics α) (place : Root → Point α) :
    ((c.drawing m place).slots.map SlotBox.slot).Perm (c.traverse.flatMap c.addresses) := by
  rw [drawing_eq, ← flatMap_ids_forest h]
  change (List.map _ (List.flatMap _ (List.map _ _))).Perm _
  rw [List.flatMap_map, List.map_flatMap, List.flatMap_assoc]
  exact List.Perm.flatMap_left _ fun r hr => Sited.slots_perm h (.root hr)

theorem nodup_slots (h : c.Linked none) (m : Metrics α) (place : Root → Point α) :
    ((c.drawing m place).slots.map SlotBox.slot).Nodup :=
  (slots_perm h m place).nodup_iff.2 (nodup_traverse_addresses h)

theorem Sited.blockRect?_of_mem (h : c.Linked none) (hs : c.Sited m place s) {rect : Rect α}
    (hx : (x, rect) ∈ (s.geometry m).blocks) : (c.drawing m place).blockRect? x = some rect := by
  rw [Geometry.blockRect?, lookup_eq_some_iff ((blocks_perm h m place).nodup_iff.2 (nodup_traverse h))]
  exact hs.subset_blocks hx

theorem blockRect?_of_sited (h : c.Linked none) (hs : c.Sited m place s) :
    (c.drawing m place).blockRect? s.tree.id = some (s.rect m) :=
  hs.blockRect?_of_mem h ((Site.blocks_geometry m s).mem_iff.2 List.mem_cons_self)

theorem mem_traverse_iff_isSome (h : c.Linked none) : x ∈ c.traverse ↔ (c.block? x).isSome := by
  rw [mem_traverse_iff h, Option.isSome_iff_exists]
  exact exists_congr fun b => h.block?_iff.symm

theorem blockRect?_isSome (h : c.Linked none) :
    ((c.drawing m place).blockRect? x).isSome = (c.block? x).isSome := by
  cases hb : c.block? x with
  | some b =>
    obtain ⟨s, hs, rfl⟩ := exists_sited h m place hb
    rw [blockRect?_of_sited h hs, Option.isSome_some, Option.isSome_some]
  | none =>
    have hnot : x ∉ (c.drawing m place).blocks.map Prod.fst := by
      rw [(blocks_perm h m place).mem_iff, mem_traverse_iff_isSome h, hb]
      exact Bool.false_ne_true
    rw [Geometry.blockRect?, Option.isSome_none, Option.isSome_eq_false_iff, Option.isNone_iff_eq_none,
      List.lookup_eq_none_iff]
    exact fun e he => bne_iff_ne.2 fun hx => hnot (hx ▸ List.mem_map_of_mem he)

theorem mem_slots_of_sited (hs : c.Sited m place s) (hbay : bay ∈ s.bays m) :
    bay.box ∈ (c.drawing m place).slots :=
  hs.sublist_slots.subset ((Site.slots_geometry m s).mem_iff.2
    (List.mem_append_left _ (List.mem_map_of_mem hbay)))

theorem slotRect?_of_mem_slots (h : c.Linked none) {box : SlotBox α} (hbox : box ∈ (c.drawing m place).slots) :
    (c.drawing m place).slotRect? box.slot = some box.rect := by
  rw [Geometry.slotRect?, (find?_eq_some_iff_of_nodup (nodup_slots h m place)).2 ⟨hbox, rfl⟩, Option.map_some]

theorem isSome_slot?_of_mem_slots (h : c.Linked none) {box : SlotBox α} (hbox : box ∈ (c.drawing m place).slots) :
    (c.slot? box.slot).isSome :=
  (mem_traverse_addresses_iff h).1 ((slots_perm h m place).mem_iff.1 (List.mem_map_of_mem hbox))

theorem slots_injective (h : c.Linked none) {box box' : SlotBox α} (hbox : box ∈ (c.drawing m place).slots)
    (hbox' : box' ∈ (c.drawing m place).slots) (he : box.slot = box'.slot) : box = box' :=
  List.inj_on_of_nodup_map (nodup_slots h m place) hbox hbox' he

theorem exists_bay_of_mem_slots (h : c.Linked none) {box : SlotBox α} (hbox : box ∈ (c.drawing m place).slots) :
    ∃ s bay, c.Sited m place s ∧ bay ∈ s.bays m ∧ bay.box = box := by
  obtain ⟨slot, hslot⟩ := Option.isSome_iff_exists.1 (isSome_slot?_of_mem_slots h hbox)
  obtain ⟨b, hb, -⟩ := exists_of_slot? hslot
  obtain ⟨s, hs, hid⟩ := exists_sited h m place hb
  obtain ⟨bay, hbay, hkey⟩ := hs.exists_bay h hslot hid.symm
  exact ⟨s, bay, hs, hbay, slots_injective h (mem_slots_of_sited hs hbay) hbox hkey⟩

theorem Sited.exists_mem_slots (h : c.Linked none) (hs : c.Sited m place s) {slot : SlotId}
    (hhost : slot.host ∈ s.tree.ids) (hslot : (c.slot? slot).isSome) :
    ∃ box ∈ (s.geometry m).slots, box.slot = slot :=
  List.mem_map.1 ((hs.slots_perm h).mem_iff.2
    (List.mem_flatMap.2 ⟨slot.host, hhost, mem_addresses_iff.2 ⟨rfl, hslot⟩⟩))

theorem Sited.mem_slots (h : c.Linked none) (hs : c.Sited m place s) {box : SlotBox α}
    (hbox : box ∈ (c.drawing m place).slots) (hhost : box.slot.host ∈ s.tree.ids) :
    box ∈ (s.geometry m).slots := by
  obtain ⟨box', hbox', hslot⟩ := hs.exists_mem_slots h hhost (isSome_slot?_of_mem_slots h hbox)
  obtain rfl := slots_injective h (hs.sublist_slots.subset hbox') hbox hslot
  exact hbox'

end Canvas
end BlockCanvas
