import BlockCanvas.Proofs.Forest
import Mathlib.Data.List.Nodup

/-!
The walk over all blocks meets each of them once. Two blocks on one way up lie one above the other, so
subtrees are nested or apart.
-/
namespace BlockCanvas

namespace Canvas
variable {c : Canvas} {id x y : BlockId}

theorem within_total {a b : BlockId} (ha : c.Within x a) (hb : c.Within x b) :
    c.Within a b ∨ c.Within b a :=
  Relation.ReflTransGen.total_of_right_unique (fun _ _ _ h h' => above_unique h h') ha hb

theorem nodup_owned (h : c.Linked none) {b : Block} (hb : c.block? id = some b) :
    b.owned.Nodup := by
  have hslot : ∀ {i : Nat} {s : Slot BlockId} {k : BlockId}, b.slots[i]? = some s → k ∈ s.children →
      c.owner? k = some (.slot ⟨id, i⟩) :=
    fun hs hk => h.owner?_of_mem_listed ((mem_listed_slot hb).2 ⟨_, hs, hk⟩)
  have hchain : c.listed (.chain id) = b.chain := by simp [listed, hb]
  refine List.nodup_append.2 ⟨List.nodup_flatMap.2 ⟨fun s hs => ?_, ?_⟩, ?_, ?_⟩
  · obtain ⟨i, hi⟩ := List.getElem?_of_mem hs
    have := h.nodup (.slot ⟨id, i⟩)
    rwa [listed, slot?_eq hb, hi] at this
  · refine List.pairwise_iff_getElem.2 fun i j hi hj hij k hk hk' => ?_
    have ho := (hslot (List.getElem?_eq_getElem hi) hk).symm.trans
      (hslot (List.getElem?_eq_getElem hj) hk')
    simp only [Option.some.injEq, Owner.slot.injEq, SlotId.mk.injEq, true_and] at ho
    omega
  · exact hchain ▸ h.nodup (.chain id)
  · rintro k hk _ hk' rfl
    obtain ⟨s, hs, hks⟩ := List.mem_flatMap.1 hk
    obtain ⟨i, hi⟩ := List.getElem?_of_mem hs
    have ho := (hslot hi hks).symm.trans (h.owner?_of_mem_listed (hchain.symm ▸ hk'))
    simp at ho

theorem disjoint_subtree (h : c.Linked none) {b : Block} (hb : c.block? x = some b) {k k' : BlockId}
    (hk : k ∈ b.owned) (hk' : k' ∈ b.owned) (hne : k ≠ k') :
    List.Disjoint (c.subtree k) (c.subtree k') := by
  obtain ⟨a, ha⟩ := h.exists_block_of_mem_owned hb hk
  obtain ⟨a', ha'⟩ := h.exists_block_of_mem_owned hb hk'
  -- a block below both would put one of them below the other, and so the host below itself
  have hapart : ∀ {k k' : BlockId}, k ∈ b.owned → k' ∈ b.owned → k ≠ k' → ¬ c.Within k k' := by
    intro k k' hk hk' hne hw
    have hx := within_of_above_of_ne hw hne (h.above_of_mem_owned hb hk)
    exact h.not_cyclic x (Relation.TransGen.tail' hx (h.above_of_mem_owned hb hk'))
  intro y hy hy'
  rcases within_total ((mem_subtree_iff h ha).1 hy) ((mem_subtree_iff h ha').1 hy') with hw | hw
  · exact hapart hk hk' hne hw
  · exact hapart hk' hk (Ne.symm hne) hw

theorem nodup_subtree (h : c.Linked none) {b : Block} (hb : c.block? x = some b) :
    (c.subtree x).Nodup := by
  refine induction_down h (P := fun x => (c.subtree x).Nodup) (fun x b hb ih => ?_) x b hb
  rw [subtree_of_block? h hb, List.nodup_cons]
  refine ⟨fun hm => ?_, List.nodup_flatMap.2 ⟨ih, ?_⟩⟩
  · obtain ⟨k, hk, hx⟩ := List.mem_flatMap.1 hm
    obtain ⟨a, ha⟩ := h.exists_block_of_mem_owned hb hk
    exact h.not_cyclic x
      (Relation.TransGen.tail' ((mem_subtree_iff h ha).1 hx) (h.above_of_mem_owned hb hk))
  · exact (nodup_owned h hb).imp_of_mem fun hk hk' hne => disjoint_subtree h hb hk hk' hne

theorem exists_root? (h : c.Linked none) (hx : x ∈ c.roots) :
    ∃ b t, c.block? x = some b ∧ b.owner = .free ∧ c.tree? x = some t ∧
      c.root? x = some ⟨b.position, t⟩ := by
  obtain ⟨b, hb, ho⟩ := Linked.exists_block_of_owner? (h.owner?_of_mem_listed (o := .free) hx)
  obtain ⟨t, ht⟩ := exists_tree? h hb
  exact ⟨b, t, hb, ho, ht, by rw [root?, hb, Option.bind_some, ht, Option.map_some]⟩

theorem nodup_traverse (h : c.Linked none) : c.traverse.Nodup := by
  refine List.nodup_flatMap.2 ⟨fun r hr => ?_, (h.nodup .free).imp_of_mem fun {r r'} hr hr' hne => ?_⟩
  · obtain ⟨b, -, hb, -⟩ := exists_root? h hr
    exact nodup_subtree h hb
  · obtain ⟨b, -, hb, -⟩ := exists_root? h hr
    obtain ⟨b', -, hb', -⟩ := exists_root? h hr'
    intro y hy hy'
    rcases within_total ((mem_subtree_iff h hb).1 hy) ((mem_subtree_iff h hb').1 hy') with hw | hw
    · exact hne (eq_of_within_free (h.owner?_of_mem_listed (o := .free) hr) hw).symm
    · exact hne (eq_of_within_free (h.owner?_of_mem_listed (o := .free) hr') hw)

/-! ### The forest -/

theorem mem_forest_iff (h : c.Linked none) {r : Root} :
    r ∈ c.forest ↔
      ∃ b ∈ c.blocks, b.owner = .free ∧ r.position = b.position ∧ c.tree? b.id = some r.tree := by
  rw [forest, List.mem_filterMap]
  constructor
  · rintro ⟨x, hx, hr⟩
    obtain ⟨b, t, hb, hfree, ht, hroot⟩ := exists_root? h hx
    obtain rfl := Option.some.inj (hroot.symm.trans hr)
    exact ⟨b, mem_of_block? hb, hfree, rfl, by rw [id_of_block? hb, ht]⟩
  · rintro ⟨b, hb, hfree, hposition, ht⟩
    have hid := block?_of_mem h.ascending hb
    have hx : b.id ∈ c.roots :=
      h.mem_listed_of_owner? (o := .free) (by rw [owner?, hid, Option.map_some, hfree])
    refine ⟨b.id, hx, ?_⟩
    rw [root?, hid, Option.bind_some, ht, Option.map_some, ← hposition]

theorem map_forest (h : c.Linked none) {β : Type} (f : Root → β) (g : BlockId → β)
    (hfg : ∀ x ∈ c.roots, ∀ r, c.root? x = some r → f r = g x) : c.forest.map f = c.roots.map g := by
  rw [forest, List.map_filterMap, ← List.filterMap_eq_map]
  refine List.filterMap_congr fun x hx => ?_
  obtain ⟨b, t, hb, -, ht, hroot⟩ := exists_root? h hx
  rw [hroot, Option.map_some, hfg x hx _ hroot]
  rfl

theorem map_id_forest (h : c.Linked none) : (c.forest.map fun r => r.tree.id) = c.roots := by
  refine (map_forest h _ id fun x hx r hr => ?_).trans (List.map_id _)
  obtain ⟨b, t, -, -, ht, hroot⟩ := exists_root? h hx
  obtain rfl := Option.some.inj (hroot.symm.trans hr)
  exact id_of_tree? h ht

theorem flatMap_ids_forest (h : c.Linked none) :
    c.forest.flatMap (fun r => r.tree.ids) = c.traverse := by
  rw [List.flatMap_def, traverse, List.flatMap_def]
  refine congrArg List.flatten (map_forest h _ _ fun x hx r hr => ?_)
  obtain ⟨b, t, -, -, ht, hroot⟩ := exists_root? h hx
  obtain rfl := Option.some.inj (hroot.symm.trans hr)
  exact (subtree_of_tree? ht).symm

theorem mem_traverse_iff (h : c.Linked none) : x ∈ c.traverse ↔ ∃ b ∈ c.blocks, b.id = x := by
  rw [traverse, List.mem_flatMap]
  constructor
  · rintro ⟨r, hr, hx⟩
    obtain ⟨b, t, hb, -, ht, -⟩ := exists_root? h hr
    obtain ⟨b', hb'⟩ := exists_block_of_within hb ((mem_subtree_iff h hb).1 hx)
    exact ⟨b', mem_of_block? hb', id_of_block? hb'⟩
  · rintro ⟨b, hb, rfl⟩
    obtain ⟨r, hfree, hw⟩ := (h.grounded b hb).exists_root
    obtain ⟨a, ha, -⟩ := Linked.exists_block_of_owner? hfree
    exact ⟨r, h.mem_listed_of_owner? hfree, (mem_subtree_iff h ha).2 hw⟩

end Canvas
end BlockCanvas
