import BlockCanvas.Proofs.Ownership

/-!
The way down. Under the ownership invariant the tree of a block is the block with the trees of what it
owns, whatever bound it was grown with (`tree?_eq`), and its ids are the blocks that have it on their
way up (`mem_subtree_iff`).
-/
namespace BlockCanvas

namespace Tree

def children (t : Tree) : List Tree :=
  t.slots.flatMap Slot.children ++ t.chain

theorem slotIds_eq (slots : List (Slot Tree)) :
    slotIds slots = (slots.flatMap Slot.children).flatMap ids := by
  have hentries : ∀ entries, entryIds entries = (entries.filterMap Entry.block?).flatMap ids := by
    intro entries
    induction entries with
    | nil => rfl
    | cons e entries ih => cases e <;> simp [entryIds, ih, List.filterMap_cons]
  induction slots with
  | nil => rfl
  | cons s slots ih =>
    obtain ⟨name, content⟩ := s
    cases content with
    | value child literal =>
      cases child <;> simp [slotIds, ih, Slot.children, Content.children]
    | body entries =>
      simp [slotIds, ih, hentries, Slot.children, Content.children, List.flatMap_append]

theorem listIds_eq (ts : List Tree) : listIds ts = ts.flatMap ids := by
  induction ts with
  | nil => rfl
  | cons t ts ih => simp [listIds, ih]

theorem ids_eq (t : Tree) : t.ids = t.id :: t.children.flatMap ids := by
  obtain ⟨id, face, slots, chain⟩ := t
  simp [ids, slotIds_eq, listIds_eq, children, Tree.id, Tree.slots, Tree.chain]

theorem length_ids_lt {t k : Tree} (h : k ∈ t.children) : k.ids.length < t.ids.length := by
  obtain ⟨before, after, hs⟩ := List.append_of_mem h
  rw [ids_eq t, hs]
  simp only [List.flatMap_append, List.flatMap_cons, List.length_cons, List.length_append]
  omega

@[elab_as_elim]
theorem induction {P : Tree → Prop} (step : ∀ t, (∀ k ∈ t.children, P k) → P t) (t : Tree) : P t := by
  induction hn : t.ids.length using Nat.strongRecOn generalizing t with
  | ind n ih => exact step t fun k hk => ih k.ids.length (hn ▸ length_ids_lt hk) k rfl

theorem mem_children {t k : Tree} :
    k ∈ t.children ↔ (∃ s ∈ t.slots, k ∈ s.children) ∨ k ∈ t.chain := by
  simp [children]

end Tree

namespace Canvas
variable {c : Canvas} {id x y : BlockId}

theorem grow_none {n : Nat} (h : c.block? x = none) : c.grow n x = none := by
  cases n with
  | zero => rfl
  | succ n => simp [grow, h]

/-- More room than the store has blocks below a block changes nothing. -/
theorem grow_succ (h : c.Linked none) {n : Nat} (hn : c.size < n + (c.ancestry x).length) :
    c.grow (n + 1) x = c.grow n x := by
  induction n generalizing x with
  | zero =>
    have hx : c.block? x = none := by
      by_contra hne
      have := length_ancestry_le h (Option.isSome_iff_ne_none.2 hne)
      omega
    rw [grow_none hx, grow_none hx]
  | succ n ih =>
    have hdown : ∀ b, c.block? x = some b → ∀ k ∈ b.owned, c.grow (n + 1) k = c.grow n k := by
      intro b hb k hk
      refine ih ?_
      rw [length_ancestry_of_above h (h.above_of_mem_owned hb hk)]
      omega
    rw [grow, grow]
    cases hb : c.block? x with
    | none => rfl
    | some b =>
      have hs : b.slots.map (Slot.filterMap (c.grow (n + 1))) = b.slots.map (Slot.filterMap (c.grow n)) :=
        List.map_congr_left fun s hs => Slot.filterMap_congr fun k hk =>
          hdown b hb k (Block.mem_owned.2 (Or.inl ⟨s, hs, hk⟩))
      have hc : b.chain.filterMap (c.grow (n + 1)) = b.chain.filterMap (c.grow n) :=
        List.filterMap_congr fun k hk => hdown b hb k (Block.mem_owned.2 (Or.inr hk))
      rw [Option.map_some, Option.map_some, hs, hc]

theorem tree?_eq (h : c.Linked none) (x : BlockId) :
    c.tree? x = (c.block? x).map fun b =>
      .node b.id b.toFace (b.slots.map (Slot.filterMap c.tree?)) (b.chain.filterMap c.tree?) := by
  have hpos := length_ancestry_pos h x
  rw [tree?, ← grow_succ h (by omega), grow]
  rfl

theorem exists_tree? (h : c.Linked none) {b : Block} (hb : c.block? x = some b) :
    ∃ t, c.tree? x = some t := by
  rw [tree?_eq h, hb]
  exact ⟨_, rfl⟩

theorem id_of_tree? (h : c.Linked none) {t : Tree} (ht : c.tree? x = some t) : t.id = x := by
  rw [tree?_eq h] at ht
  obtain ⟨b, hb, rfl⟩ := Option.map_eq_some_iff.1 ht
  exact id_of_block? hb

theorem children_of_tree? (h : c.Linked none) {b : Block} {t : Tree} (hb : c.block? x = some b)
    (ht : c.tree? x = some t) : t.children = b.owned.filterMap c.tree? := by
  rw [tree?_eq h, hb] at ht
  obtain rfl := Option.some.inj ht
  simp [Tree.children, Tree.slots, Tree.chain, Block.owned, List.filterMap_append,
    List.flatMap_map, List.filterMap_flatMap]

theorem subtree_of_tree? {t : Tree} (ht : c.tree? x = some t) : c.subtree x = t.ids := by
  rw [subtree, ht, Option.elim_some]

theorem subtree_of_block? (h : c.Linked none) {b : Block} (hb : c.block? x = some b) :
    c.subtree x = x :: b.owned.flatMap c.subtree := by
  obtain ⟨t, ht⟩ := exists_tree? h hb
  have hsub : ∀ ks : List BlockId,
      (ks.filterMap c.tree?).flatMap Tree.ids = ks.flatMap c.subtree := by
    intro ks
    induction ks with
    | nil => rfl
    | cons k ks ih =>
      cases hk : c.tree? k with
      | none => simp [hk, ih, subtree]
      | some t => simp [hk, ih, subtree]
  rw [subtree_of_tree? ht, Tree.ids_eq, id_of_tree? h ht, children_of_tree? h hb ht, hsub]

theorem mem_subtree_iff (h : c.Linked none) {b : Block} (hy : c.block? y = some b) :
    x ∈ c.subtree y ↔ c.Within x y := by
  constructor
  · intro hx
    revert x
    refine induction_down h (P := fun y => ∀ {x}, x ∈ c.subtree y → c.Within x y) ?_ y b hy
    intro y b hb ih x hx
    rw [subtree_of_block? h hb] at hx
    rcases List.mem_cons.1 hx with rfl | hm
    · exact within_self c x
    · obtain ⟨k, hk, hxk⟩ := List.mem_flatMap.1 hm
      exact (ih k hk hxk).tail (h.above_of_mem_owned hb hk)
  · intro hw
    induction hw generalizing b with
    | refl =>
      rw [subtree_of_block? h hy]
      exact List.mem_cons_self
    | @tail k y hxk hky ih =>
      obtain ⟨b', hb', hk⟩ := h.exists_of_above hky
      obtain ⟨kb, hkb⟩ := h.exists_block_of_mem_owned hb' hk
      rw [subtree_of_block? h hb']
      exact List.mem_cons_of_mem _ (List.mem_flatMap.2 ⟨k, hk, ih hkb⟩)

theorem mem_ids_of_tree? (h : c.Linked none) {t : Tree} (ht : c.tree? y = some t) : x ∈ t.ids ↔ c.Within x y := by
  cases hb : c.block? y with
  | none =>
    rw [tree?_eq h, hb] at ht
    cases ht
  | some b => rw [← subtree_of_tree? ht, mem_subtree_iff h hb]

/-- The test on the way up and the list of what is below say the same. -/
theorem isWithin_iff_mem_subtree (h : c.Linked none) {b : Block} (hy : c.block? y = some b) :
    c.isWithin x y = true ↔ x ∈ c.subtree y := by
  rw [isWithin_iff h, mem_subtree_iff h hy]

theorem isWithin_eq_false_iff (h : c.Linked none) {b : Block} (hy : c.block? y = some b) :
    c.isWithin x y = false ↔ x ∉ c.subtree y := by
  rw [← isWithin_iff_mem_subtree h hy, Bool.not_eq_true]

/-! ### What trees depend on -/

theorem grow_congr {c' : Canvas} (hb : c'.blocks = c.blocks) : c'.grow = c.grow := by
  funext n x
  induction n generalizing x with
  | zero => rfl
  | succ n ih =>
    have hg : c'.grow n = c.grow n := funext ih
    simp only [grow, block?, hb, hg]

theorem tree?_congr_blocks {c' : Canvas} (hb : c'.blocks = c.blocks) : c'.tree? = c.tree? := by
  funext x
  rw [tree?, tree?, grow_congr hb, size, hb, size]

theorem forest_congr {c' : Canvas} (hb : c'.blocks = c.blocks) (hr : c'.roots = c.roots) :
    c'.forest = c.forest := by
  have hroot : c'.root? = c.root? := by
    funext x
    simp only [root?, block?, hb, tree?_congr_blocks hb]
  rw [forest, forest, hroot, hr]

end Canvas
end BlockCanvas
