import BlockCanvas.Proofs.Growth
import BlockCanvas.Proofs.Traversal

/-!
What is known of a tree of a sound canvas by itself: each block has the slots of its kind and sits where
it may. What is written or generated from a canvas is a function of such trees.
-/
namespace BlockCanvas

namespace Tree

inductive Legal : Tree → Prop
  | node {id : BlockId} {face : Face} {slots : List (Slot Tree)} {chain : List Tree} :
      slots.map Slot.signature = (Template.slots (β := Tree) face.kind).map Slot.signature →
      (face.kind = .operation → face.operator ≠ none) →
      (∀ s ∈ slots, ∀ k ∈ s.children, canNest (.slot face.kind s.shape) (.block k.kind) = true) →
      (chain ≠ [] → face.kind = .ifBranch) → (∀ k ∈ chain, k.kind.isConnector = true) →
      (chain.Pairwise fun k _ => k.kind ≠ .elseBranch) →
      (∀ s ∈ slots, ∀ k ∈ s.children, Legal k) → (∀ k ∈ chain, Legal k) →
      Legal (.node id face slots chain)

theorem Legal.of_mem_children {t k : Tree} (h : t.Legal) (hk : k ∈ t.children) : k.Legal := by
  cases h with
  | node _ _ _ _ _ _ hslots hchain =>
    rcases mem_children.1 hk with ⟨s, hs, hk⟩ | hk
    · exact hslots s hs k hk
    · exact hchain k hk

end Tree

namespace Canvas
variable {c : Canvas} {x : BlockId} {t : Tree}

theorem kind?_of_tree? (h : c.Linked none) (ht : c.tree? x = some t) : c.kind? x = some t.kind := by
  obtain ⟨b, hb, rfl⟩ := exists_block_of_tree? h ht
  rw [kind?, hb, Option.map_some]
  rfl

theorem legal_of_tree? (h : c.Sound none) (ht : c.tree? x = some t) : t.Legal := by
  induction t using Tree.induction generalizing x with
  | step t ih =>
    obtain ⟨b, hb, rfl⟩ := exists_block_of_tree? h.toLinked ht
    have htyped := h.typed b (mem_of_block? hb)
    have hmem : ∀ {k : BlockId} {t : Tree}, k ∈ b.owned → c.tree? k = some t →
        t ∈ (Tree.node x b.toFace (b.slots.map (Slot.filterMap c.tree?))
          (b.chain.filterMap c.tree?)).children := fun hk htk => by
      rw [children_of_tree? h.toLinked hb ht]
      exact List.mem_filterMap.2 ⟨_, hk, htk⟩
    -- what the tree holds as trees the block names by their ids
    have hslot : ∀ s ∈ b.slots.map (Slot.filterMap c.tree?), ∀ t ∈ s.children,
        ∃ s' ∈ b.slots, ∃ k ∈ s'.children, s'.shape = s.shape ∧ c.tree? k = some t := by
      intro s hs t ht
      obtain ⟨s', hs', rfl⟩ := List.mem_map.1 hs
      rw [Slot.children_filterMap] at ht
      obtain ⟨k, hk, ht⟩ := List.mem_filterMap.1 ht
      exact ⟨s', hs', k, hk, (Content.shape_filterMap c.tree? s'.content).symm, ht⟩
    refine .node ?_ htyped.operator ?_ ?_ ?_ ?_ ?_ ?_
    · have hsig : Slot.signature ∘ Slot.filterMap c.tree? = Slot.signature :=
        funext (Slot.signature_filterMap c.tree?)
      rw [List.map_map, hsig, htyped.slots]
      cases b.kind <;> rfl
    · intro s hs t ht
      obtain ⟨s', hs', k, hk, hshape, htk⟩ := hslot s hs t ht
      obtain ⟨kind, hkind, hfits⟩ := htyped.nests s' hs' k hk
      obtain rfl := Option.some.inj (hkind.symm.trans (kind?_of_tree? h.toLinked htk))
      exact hshape ▸ hfits
    · intro hne
      refine htyped.heads fun he => hne ?_
      rw [he, List.filterMap_nil]
    · intro t ht
      obtain ⟨k, hk, htk⟩ := List.mem_filterMap.1 ht
      obtain ⟨kind, hkind, hconn⟩ := htyped.connectors k hk
      obtain rfl := Option.some.inj (hkind.symm.trans (kind?_of_tree? h.toLinked htk))
      exact hconn
    · refine List.Pairwise.filterMap c.tree? ?_ htyped.elseLast
      intro k k' hne t htk _ _ he
      exact hne ((kind?_of_tree? h.toLinked htk).trans (congrArg some he))
    · intro s hs t ht
      obtain ⟨s', hs', k, hk, -, htk⟩ := hslot s hs t ht
      have hk' := Block.mem_owned.2 (Or.inl ⟨s', hs', hk⟩)
      exact ih t (hmem hk' htk) htk
    · intro t ht
      obtain ⟨k, hk, htk⟩ := List.mem_filterMap.1 ht
      exact ih t (hmem (Block.mem_owned.2 (Or.inr hk)) htk) htk

theorem Sound.legal_of_mem_forest (h : c.Sound none) {r : Root} (hr : r ∈ c.forest) : r.tree.Legal := by
  obtain ⟨b, -, -, -, ht⟩ := (mem_forest_iff h.toLinked).1 hr
  exact legal_of_tree? h ht

end Canvas
end BlockCanvas
