import BlockCanvas.Proofs.Reachable
import BlockCanvas.Proofs.Sites
import Mathlib.Data.List.MinMax

/-!
What a pointer can hit. The drawing of a canvas has one rectangle for each block and one for each slot, none for
anything else, a slot is painted after what is in it, and of the slots under a point the last of the deepest is hit
(`Canvas.Reachable.surface`).
-/
namespace BlockCanvas

def Owner.isSlot : Owner → Bool
  | .slot _ => true
  | _ => false

namespace Canvas
variable {c : Canvas} {x y : BlockId}

/-! ### Slots below slots -/

def slotDepth (c : Canvas) (x : BlockId) : ℕ :=
  (c.ancestry x).countP fun y => (c.owner? y).any Owner.isSlot

/-- The first slot is of a block that is in the second one, directly or through others. -/
def Under (c : Canvas) (inner outer : SlotId) : Prop :=
  ∃ x, c.owner? x = some (.slot outer) ∧ c.Within inner.host x

theorem slotDepth_of_owner? (h : c.Linked none) {o : Owner} (ho : c.owner? x = some o) :
    c.slotDepth x = o.host?.elim 0 c.slotDepth + o.isSlot.toNat := by
  rw [slotDepth, ancestry_eq h, List.countP_cons, ho, Option.any_some, parent?_eq, ho, Option.bind_some]
  cases o <;> rfl

theorem slotDepth_le_of_within (h : c.Linked none) (hw : c.Within x y) : c.slotDepth y ≤ c.slotDepth x := by
  induction hw with
  | refl => exact le_refl _
  | @tail y z _ hyz ih =>
    obtain ⟨o, ho, hz⟩ := exists_owner_of_above hyz
    refine le_trans ?_ ih
    rw [slotDepth_of_owner? h ho, hz, Option.elim_some]
    exact Nat.le_add_right _ _

theorem slotDepth_lt_of_under (h : c.Linked none) {inner outer : SlotId} (hu : c.Under inner outer) :
    c.slotDepth outer.host < c.slotDepth inner.host := by
  obtain ⟨x, ho, hw⟩ := hu
  have hx : c.slotDepth x = c.slotDepth outer.host + 1 := slotDepth_of_owner? h ho
  exact lt_of_lt_of_le (Nat.lt_of_succ_le hx.ge) (slotDepth_le_of_within h hw)

variable {α : Type} [Add α] [Sub α] [LE α] [DecidableLE α] {m : Metrics α} {place : Root → Point α} {s : Site α}

theorem Sited.depth_eq (h : c.Linked none) (hs : c.Sited m place s) : s.depth = c.slotDepth s.tree.id := by
  induction hs with
  | @root r hr =>
    obtain ⟨b, hb, hfree, -, ht⟩ := (mem_forest_iff h).1 hr
    have ho : c.owner? (rootSite place r).tree.id = some .free := by
      change c.owner? r.tree.id = _
      rw [id_of_tree? h ht, owner?, block?_of_mem h.ascending hb, Option.map_some, hfree]
    rw [slotDepth_of_owner? h ho]
    rfl
  | @inner s k hs hk ih =>
    rcases List.mem_append.1 hk with hbays | hchain
    · obtain ⟨bay, hbay, hk⟩ := List.mem_flatMap.1 hbays
      obtain ⟨slot, -, hhost, -, -, -, hdepth⟩ := hs.exists_slot h hbay
      rw [slotDepth_of_owner? h (hs.owner?_of_mem_bay h hbay hk), hdepth k hk, ih]
      exact congrArg (c.slotDepth · + 1) hhost.symm
    · rw [slotDepth_of_owner? h (hs.owner?_of_mem_connectors h hchain), Site.depth_of_mem_connectors m hchain, ih]
      rfl

theorem sublist_of_under (h : c.Linked none) {inner outer : SlotBox α} (hi : inner ∈ (c.drawing m place).slots)
    (ho : outer ∈ (c.drawing m place).slots) (hu : c.Under inner.slot outer.slot) :
    [inner, outer].Sublist (c.drawing m place).slots := by
  obtain ⟨x, howner, hw⟩ := hu
  obtain ⟨s, outerBay, hs, houter, rfl⟩ := exists_bay_of_mem_slots h ho
  obtain ⟨slot, -, hhost, -⟩ := hs.exists_slot h houter
  obtain ⟨bay, hbay, hbox, k, hk, rfl⟩ := hs.exists_of_slot h hhost howner
  rw [← slots_injective h (mem_slots_of_sited hs hbay) ho hbox]
  have hbelow : c.Sited m place k := .inner hs (Site.mem_below_of_mem_bay m hbay hk)
  have hinner : inner ∈ (k.geometry m).slots := hbelow.mem_slots h hi ((hbelow.mem_ids_iff h).2 hw)
  exact (Site.before_box m hbay hk hinner).trans hs.sublist_slots

end Canvas

/-! ### The slot that is hit -/

namespace Geometry
variable {α : Type}

def deepest (boxes : List (SlotBox α)) : List (SlotBox α) :=
  boxes.filter fun box => boxes.all fun other => other.depth ≤ box.depth

theorem mem_deepest_iff {boxes : List (SlotBox α)} {box : SlotBox α} :
    box ∈ deepest boxes ↔ box ∈ boxes ∧ ∀ other ∈ boxes, other.depth ≤ box.depth := by
  simp [deepest]

theorem deepest_eq_nil_iff {boxes : List (SlotBox α)} : deepest boxes = [] ↔ boxes = [] := by
  refine ⟨fun he => ?_, by rintro rfl; rfl⟩
  cases hmax : boxes.argmax SlotBox.depth with
  | none => exact List.argmax_eq_none.1 hmax
  | some box =>
    have hmem : box ∈ deepest boxes :=
      mem_deepest_iff.2 ⟨List.argmax_mem hmax, fun other ho => List.le_of_mem_argmax ho hmax⟩
    rw [he] at hmem
    cases hmem

def pick (best : Option (SlotBox α)) (box : SlotBox α) : Option (SlotBox α) :=
  match best with
  | none => some box
  | some b => if b.depth ≤ box.depth then some box else best

theorem pick_getLast?_deepest (boxes : List (SlotBox α)) (box : SlotBox α) :
    pick (deepest boxes).getLast? box = (deepest (boxes ++ [box])).getLast? := by
  have hsplit : deepest (boxes ++ [box]) =
      (deepest boxes).filter (fun b => box.depth ≤ b.depth) ++
        [box].filter fun b => boxes.all fun other => other.depth ≤ b.depth := by
    rw [deepest, List.filter_append, deepest, List.filter_filter]
    congr 1
    · exact List.filter_congr fun b _ => by simp [Bool.and_comm]
    · refine List.filter_congr fun b hb => ?_
      rw [List.all_append, List.mem_singleton.1 hb]
      simp
  cases hlast : (deepest boxes).getLast? with
  | none =>
    obtain rfl := deepest_eq_nil_iff.1 (List.getLast?_eq_none_iff.1 hlast)
    simp [pick, deepest]
  | some best =>
    obtain ⟨hbest, hmax⟩ := mem_deepest_iff.1 (List.mem_of_getLast? hlast)
    -- the deepest are all as deep as the last of them, so the new one stands with all or with none
    have hsame : ∀ b ∈ deepest boxes, b.depth = best.depth := fun b hb =>
      le_antisymm (hmax b (mem_deepest_iff.1 hb).1) ((mem_deepest_iff.1 hb).2 best hbest)
    by_cases hle : best.depth ≤ box.depth
    · have hall : (boxes.all fun other => other.depth ≤ box.depth) = true := by
        simpa using fun other ho => (hmax other ho).trans hle
      rw [hsplit, List.filter_cons_of_pos (by exact hall), List.filter_nil, List.getLast?_concat]
      exact if_pos hle
    · have hall : ¬ (boxes.all fun other => other.depth ≤ box.depth) = true := by
        simpa using ⟨best, hbest, Nat.lt_of_not_le hle⟩
      have hkept : (deepest boxes).filter (fun b => box.depth ≤ b.depth) = deepest boxes :=
        List.filter_eq_self.2 fun b hb => by simpa [hsame b hb] using Nat.le_of_not_le hle
      rw [hsplit, List.filter_cons_of_neg (by exact hall), List.filter_nil, List.append_nil, hkept, hlast]
      exact if_neg hle

theorem foldl_pick (boxes : List (SlotBox α)) : boxes.foldl pick none = (deepest boxes).getLast? := by
  induction boxes using List.reverseRecOn with
  | nil => rfl
  | append_singleton boxes box ih => rw [List.foldl_concat, ih, pick_getLast?_deepest]

variable [Add α] [LE α] [DecidableLE α]

def hits (g : Geometry α) (p : Point α) (skip : SlotId → Bool) : List (SlotBox α) :=
  g.slots.filter fun box => box.rect.contains p && !skip box.slot

theorem slotAt?_eq (g : Geometry α) (p : Point α) (skip : SlotId → Bool) :
    g.slotAt? p skip = (deepest (g.hits p skip)).getLast?.map SlotBox.slot := by
  rw [← foldl_pick, hits, List.foldl_filter, slotAt?]
  congr 2
  funext best box
  cases box.rect.contains p <;> cases skip box.slot <;> rfl

theorem slotAt?_eq_none_iff (g : Geometry α) (p : Point α) (skip : SlotId → Bool) :
    g.slotAt? p skip = none ↔ ∀ box ∈ g.slots, box.rect.contains p = true → skip box.slot = true := by
  rw [slotAt?_eq, Option.map_eq_none_iff, List.getLast?_eq_none_iff, deepest_eq_nil_iff, hits, List.filter_eq_nil_iff]
  simp

end Geometry

namespace Canvas
variable {α : Type} [Add α] [Sub α] [LE α] [DecidableLE α]

structure Surface (c : Canvas) (g : Geometry α) : Prop where
  blocks : ∀ x, (g.blocks.map Prod.fst).count x = if (c.block? x).isSome then 1 else 0
  blockRect? : ∀ x, (g.blockRect? x).isSome = (c.block? x).isSome
  slots : ∀ slot, (g.slots.map SlotBox.slot).count slot = if (c.slot? slot).isSome then 1 else 0
  shape : ∀ box ∈ g.slots, (c.slot? box.slot).map Slot.shape = some box.shape
  depth : ∀ box ∈ g.slots, box.depth = c.slotDepth box.slot.host
  order : ∀ inner ∈ g.slots, ∀ outer ∈ g.slots, c.Under inner.slot outer.slot → [inner, outer].Sublist g.slots
  missed : ∀ p skip, g.slotAt? p skip = none ↔
    ∀ box ∈ g.slots, box.rect.contains p = true → skip box.slot = true
  hit : ∀ p skip, g.slotAt? p skip = (Geometry.deepest (g.hits p skip)).getLast?.map SlotBox.slot

theorem surface_drawing {c : Canvas} (h : c.Linked none) (m : Metrics α) (place : Root → Point α) :
    c.Surface (c.drawing m place) where
  blocks x := by
    rw [(blocks_perm h m place).count_eq, (nodup_traverse h).count]
    exact if_congr (mem_traverse_iff_isSome h) rfl rfl
  blockRect? x := blockRect?_isSome h
  slots slot := by
    rw [(slots_perm h m place).count_eq, (nodup_traverse_addresses h).count]
    exact if_congr (mem_traverse_addresses_iff h) rfl rfl
  shape box hbox := by
    obtain ⟨s, bay, hs, hbay, rfl⟩ := exists_bay_of_mem_slots h hbox
    obtain ⟨slot, hslot, -, hshape, -⟩ := hs.exists_slot h hbay
    rw [hslot, Option.map_some, hshape]
  depth box hbox := by
    obtain ⟨s, bay, hs, hbay, rfl⟩ := exists_bay_of_mem_slots h hbox
    obtain ⟨slot, -, hhost, -, hdepth, -⟩ := hs.exists_slot h hbay
    rw [hdepth, hhost, hs.depth_eq h]
  order _ hi _ ho := sublist_of_under h hi ho
  missed := Geometry.slotAt?_eq_none_iff _
  hit := Geometry.slotAt?_eq _

/-- On every canvas that edits lead to, what is drawn is a surface that can be hit. -/
theorem Reachable.surface {c : Canvas} (h : c.Reachable) : c.Surface c.geometry := by
  rw [geometry_eq_drawing]
  exact surface_drawing h.sound.toLinked _ _

theorem surface_branching :
    let c := Edit.run empty
      [.instantiate .print .origin, .instantiate .whileLoop ⟨7, 9⟩, .instantiateInto .ifBranch ⟨2, 1⟩,
        .instantiate .elifBranch .origin, .attachConnector 4 3, .instantiateInto .operation ⟨4, 0⟩]
    c.geometry.slots.map (fun box => (box.slot, box.depth)) =
        [(⟨1, 0⟩, 0), (⟨2, 0⟩, 0), (⟨3, 0⟩, 1), (⟨3, 1⟩, 1), (⟨5, 0⟩, 2), (⟨5, 1⟩, 2), (⟨4, 0⟩, 1), (⟨4, 1⟩, 1),
          (⟨2, 1⟩, 0)] ∧
      c.slotDepth 5 = 2 ∧ c.Under ⟨5, 1⟩ ⟨2, 1⟩ ∧ c.Reachable ∧ c.Surface c.geometry := by
  intro c
  have hc : c.Reachable := Reachable.run (.start _) _
  have hwithin : c.Within 5 3 := (isWithin_iff hc.sound.toLinked).1 (by decide)
  exact ⟨by decide +kernel, by decide, ⟨3, by decide, hwithin⟩, hc, Reachable.surface hc⟩

end Canvas
end BlockCanvas
