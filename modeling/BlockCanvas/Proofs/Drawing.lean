import BlockCanvas.Geometry.Layout
import BlockCanvas.Proofs.Forest
import Mathlib.Data.List.Basic
import Mathlib.Data.List.Perm.Basic

/-!
How a tree is drawn, one level at a time. Drawn from its site, a tree gives its own rectangle, a bay for each of
its slots, and further sites, for the trees in its bays and for its connectors; its geometry is made of these
(`Site.geometry_eq`). So each block and each slot of the tree is drawn once, and what is in a slot before the
slot (`Site.before_box`).
-/
namespace BlockCanvas
variable {α : Type}

structure Site (α : Type) where
  origin : Point α
  depth : ℕ
  tree : Tree

structure Bay (α : Type) where
  box : SlotBox α
  sites : List (Site α)

namespace Geometry

def concat (gs : List (Geometry α)) : Geometry α :=
  ⟨gs.flatMap blocks, gs.flatMap slots⟩

theorem append_empty (g : Geometry α) : g ++ ({} : Geometry α) = g := by
  obtain ⟨blocks, slots⟩ := g
  change Geometry.mk (blocks ++ []) (slots ++ []) = _
  rw [List.append_nil, List.append_nil]

end Geometry

variable [Add α] [Sub α] [LE α] [DecidableLE α] (m : Metrics α)

namespace Site

/-- The rectangle of a tree with its chain. -/
def group (s : Site α) : Rect α :=
  (Geometry.ofTree m s.origin s.depth s.tree).1

def geometry (s : Site α) : Geometry α :=
  (Geometry.ofTree m s.origin s.depth s.tree).2

end Site

def Bay.geometry (d : Bay α) : Geometry α :=
  .concat (d.sites.map (Site.geometry m)) ++ .ofSlot d.box

namespace Geometry

/-! ### Sites below a site -/

def entrySites (x : α) (depth : ℕ) (y : α) : List (Entry Tree) → List (Site α)
  | [] => []
  | .block t :: entries =>
    let s : Site α := ⟨⟨x, y⟩, depth + 1, t⟩
    s :: entrySites x depth (y + (s.group m).height) entries
  | .line _ :: entries => entrySites x depth (y + m.rowHeight) entries

def chainSites (origin : Point α) (depth : ℕ) (group : Rect α) : List Tree → List (Site α)
  | [] => []
  | t :: ts =>
    let s : Site α := ⟨⟨origin.x, group.y + group.height⟩, depth, t⟩
    let grown : Rect α :=
      ⟨group.x, group.y, larger group.width (s.group m).width, group.height + (s.group m).height⟩
    s :: chainSites origin depth grown ts

def drawSlot (host : BlockId) (origin : Point α) (depth index : ℕ) (pen : Pen α) : Slot Tree → Pen α × Bay α
  | ⟨_, .value none _⟩ =>
    let row := openRow m origin pen
    let rect : Rect α := ⟨row.cursor, row.top + m.inset, m.valueWidth, m.rowHeight - (m.inset + m.inset)⟩
    (pastValue m origin pen row rect, ⟨⟨⟨host, index⟩, .value, rect, depth⟩, []⟩)
  | ⟨_, .value (some child) _⟩ =>
    let row := openRow m origin pen
    let s : Site α := ⟨⟨row.cursor, row.top + m.inset⟩, depth + 1, child⟩
    (pastValue m origin pen row (s.group m), ⟨⟨⟨host, index⟩, .value, s.group m, depth⟩, [s]⟩)
  | ⟨_, .body entries⟩ =>
    let x := origin.x + m.indent
    let top := bodyTop m index pen
    let body := ofEntries m x depth top (m.minBlockWidth - m.indent) entries
    let height := larger (body.1 - top) m.emptyBodyHeight
    (⟨top + height, larger pen.width (m.indent + body.2.1), none⟩,
      ⟨⟨⟨host, index⟩, .statement, ⟨x, top, body.2.1, height⟩, depth⟩, entrySites m x depth top entries⟩)

def bays (host : BlockId) (origin : Point α) (depth index : ℕ) (pen : Pen α) : List (Slot Tree) → List (Bay α)
  | [] => []
  | slot :: slots =>
    let drawn := drawSlot m host origin depth index pen slot
    drawn.2 :: bays host origin depth (index + 1) drawn.1 slots

def penAfter (host : BlockId) (origin : Point α) (depth index : ℕ) (pen : Pen α) : List (Slot Tree) → Pen α
  | [] => pen
  | slot :: slots =>
    penAfter host origin depth (index + 1) (drawSlot m host origin depth index pen slot).1 slots

theorem geometry_ofEntries (x : α) (depth : ℕ) (y width : α) (entries : List (Entry Tree)) :
    (ofEntries m x depth y width entries).2.2 =
      concat ((entrySites m x depth y entries).map (Site.geometry m)) := by
  induction entries generalizing y width with
  | nil => rfl
  | cons e entries ih =>
    cases e with
    | block t => exact congrArg (_ ++ ·) (ih _ _)
    | line text => exact ih _ _

theorem geometry_ofChain (origin : Point α) (depth : ℕ) (group : Rect α) (ts : List Tree) :
    (ofChain m origin depth group ts).2 =
      concat ((chainSites m origin depth group ts).map (Site.geometry m)) := by
  induction ts generalizing group with
  | nil => rfl
  | cons t ts ih => exact congrArg (_ ++ ·) (ih _)

theorem ofSlots_cons (host : BlockId) (origin : Point α) (depth index : ℕ) (pen : Pen α) (slot : Slot Tree)
    (slots : List (Slot Tree)) :
    ofSlots m host origin depth index pen (slot :: slots) =
      ((ofSlots m host origin depth (index + 1) (drawSlot m host origin depth index pen slot).1 slots).1,
        (drawSlot m host origin depth index pen slot).2.geometry m ++
          (ofSlots m host origin depth (index + 1) (drawSlot m host origin depth index pen slot).1 slots).2) := by
  obtain ⟨name, ⟨child, literal⟩ | entries⟩ := slot
  · cases child with
    | none => rfl
    | some t =>
      refine Prod.ext rfl ?_
      change _ ++ _ ++ _ = (_ ++ ({} : Geometry α)) ++ _ ++ _
      rw [append_empty]
      rfl
  · have hinner := geometry_ofEntries m (origin.x + m.indent) depth (bodyTop m index pen)
      (m.minBlockWidth - m.indent) entries
    refine Prod.ext rfl ?_
    rw [Bay.geometry, drawSlot, ← hinner]
    rfl

theorem ofSlots_eq (host : BlockId) (origin : Point α) (depth index : ℕ) (pen : Pen α)
    (slots : List (Slot Tree)) :
    ofSlots m host origin depth index pen slots =
      (penAfter m host origin depth index pen slots,
        concat ((bays m host origin depth index pen slots).map (Bay.geometry m))) := by
  induction slots generalizing index pen with
  | nil => rfl
  | cons slot slots ih =>
    rw [ofSlots_cons, ih]
    rfl

/-! ### The bays of a site -/

theorem map_tree_entrySites (x : α) (depth : ℕ) (y : α) (entries : List (Entry Tree)) :
    (entrySites m x depth y entries).map Site.tree = entries.filterMap Entry.block? := by
  induction entries generalizing y with
  | nil => rfl
  | cons e entries ih =>
    cases e with
    | block t => exact congrArg (t :: ·) (ih _)
    | line text => exact ih _

theorem map_tree_chainSites (origin : Point α) (depth : ℕ) (group : Rect α) (ts : List Tree) :
    (chainSites m origin depth group ts).map Site.tree = ts := by
  induction ts generalizing group with
  | nil => rfl
  | cons t ts ih => exact congrArg (t :: ·) (ih _)

theorem depth_of_mem_entrySites {x : α} {depth : ℕ} {y : α} {entries : List (Entry Tree)} {k : Site α}
    (hk : k ∈ entrySites m x depth y entries) : k.depth = depth + 1 := by
  induction entries generalizing y with
  | nil => cases hk
  | cons e entries ih =>
    cases e with
    | block t =>
      rcases List.mem_cons.1 hk with rfl | hk
      · rfl
      · exact ih hk
    | line text => exact ih hk

theorem depth_of_mem_chainSites {origin : Point α} {depth : ℕ} {group : Rect α} {ts : List Tree} {k : Site α}
    (hk : k ∈ chainSites m origin depth group ts) : k.depth = depth := by
  induction ts generalizing group with
  | nil => cases hk
  | cons t ts ih =>
    rcases List.mem_cons.1 hk with rfl | hk
    · rfl
    · exact ih hk

variable (host : BlockId) (origin : Point α) (depth index : ℕ) (pen : Pen α)

theorem drawSlot_eq (slot : Slot Tree) :
    let bay := (drawSlot m host origin depth index pen slot).2
    bay.box.slot = ⟨host, index⟩ ∧ bay.box.shape = slot.shape ∧ bay.box.depth = depth ∧
      bay.sites.map Site.tree = slot.children ∧ ∀ k ∈ bay.sites, k.depth = depth + 1 := by
  obtain ⟨name, ⟨child, literal⟩ | entries⟩ := slot
  · cases child with
    | none => exact ⟨rfl, rfl, rfl, rfl, nofun⟩
    | some t => exact ⟨rfl, rfl, rfl, rfl, fun k hk => by rw [List.mem_singleton.1 hk]⟩
  · exact ⟨rfl, rfl, rfl, map_tree_entrySites m _ _ _ _, fun k hk => depth_of_mem_entrySites m hk⟩

theorem map_trees_bays (slots : List (Slot Tree)) :
    (bays m host origin depth index pen slots).map (fun bay => bay.sites.map Site.tree) =
      slots.map Slot.children := by
  induction slots generalizing index pen with
  | nil => rfl
  | cons slot slots ih =>
    obtain ⟨-, -, -, htrees, -⟩ := drawSlot_eq m host origin depth index pen slot
    rw [bays, List.map_cons, List.map_cons, htrees, ih]

theorem getElem?_bays (slots : List (Slot Tree)) (i : ℕ) :
    (bays m host origin depth index pen slots)[i]? = slots[i]?.map fun slot =>
      (drawSlot m host origin depth (index + i) (penAfter m host origin depth index pen (slots.take i)) slot).2 := by
  induction slots generalizing index pen i with
  | nil => rfl
  | cons slot slots ih =>
    cases i with
    | zero => rfl
    | succ i =>
      have hindex : index + 1 + i = index + (i + 1) := by omega
      rw [bays, List.getElem?_cons_succ, ih, List.getElem?_cons_succ, List.take_succ_cons, hindex]
      rfl

end Geometry

namespace Site
open Geometry

def pen (s : Site α) : Pen α :=
  penAfter m s.tree.id s.origin s.depth 0 ⟨s.origin.y, m.minBlockWidth, none⟩ s.tree.slots

def rect (s : Site α) : Rect α :=
  ⟨s.origin.x, s.origin.y, (s.pen m).width, bottom m s.tree.slots (s.pen m) - s.origin.y⟩

def bays (s : Site α) : List (Bay α) :=
  Geometry.bays m s.tree.id s.origin s.depth 0 ⟨s.origin.y, m.minBlockWidth, none⟩ s.tree.slots

def connectors (s : Site α) : List (Site α) :=
  chainSites m s.origin s.depth (s.rect m) s.tree.chain

def below (s : Site α) : List (Site α) :=
  (s.bays m).flatMap Bay.sites ++ s.connectors m

theorem group_eq (s : Site α) : s.group m = (ofChain m s.origin s.depth (s.rect m) s.tree.chain).1 := by
  obtain ⟨origin, depth, ⟨id, face, slots, chain⟩⟩ := s
  simp only [group, ofTree, ofSlots_eq, rect, pen, Tree.id, Tree.slots, Tree.chain]

theorem geometry_eq (s : Site α) :
    s.geometry m = concat ((s.bays m).map (Bay.geometry m)) ++ ofBlock s.tree.id (s.rect m) ++
      concat ((s.connectors m).map (geometry m)) := by
  obtain ⟨origin, depth, ⟨id, face, slots, chain⟩⟩ := s
  rw [connectors, ← geometry_ofChain]
  simp only [geometry, ofTree, ofSlots_eq, rect, pen, bays, Tree.id, Tree.slots, Tree.chain]

theorem getElem?_bays (s : Site α) (i : ℕ) :
    (s.bays m)[i]? = s.tree.slots[i]?.map fun slot => (drawSlot m s.tree.id s.origin s.depth i
      (penAfter m s.tree.id s.origin s.depth 0 ⟨s.origin.y, m.minBlockWidth, none⟩ (s.tree.slots.take i)) slot).2 := by
  rw [bays, Geometry.getElem?_bays, Nat.zero_add]

theorem exists_bay {s : Site α} {i : ℕ} {slot : Slot Tree} (h : s.tree.slots[i]? = some slot) :
    ∃ bay, (s.bays m)[i]? = some bay ∧ bay.box.slot = ⟨s.tree.id, i⟩ ∧ bay.box.shape = slot.shape ∧
      bay.box.depth = s.depth ∧ bay.sites.map tree = slot.children ∧ ∀ k ∈ bay.sites, k.depth = s.depth + 1 := by
  rw [getElem?_bays, h]
  exact ⟨_, rfl, drawSlot_eq m _ _ _ _ _ slot⟩

theorem exists_slot {s : Site α} {bay : Bay α} (h : bay ∈ s.bays m) :
    ∃ i slot, s.tree.slots[i]? = some slot ∧ bay.box.slot = ⟨s.tree.id, i⟩ ∧ bay.box.shape = slot.shape ∧
      bay.box.depth = s.depth ∧ bay.sites.map tree = slot.children ∧ ∀ k ∈ bay.sites, k.depth = s.depth + 1 := by
  obtain ⟨i, hi⟩ := List.getElem?_of_mem h
  rw [getElem?_bays] at hi
  obtain ⟨slot, hslot, rfl⟩ := Option.map_eq_some_iff.1 hi
  exact ⟨i, slot, hslot, drawSlot_eq m _ _ _ _ _ slot⟩

theorem map_tree_connectors (s : Site α) : (s.connectors m).map tree = s.tree.chain :=
  map_tree_chainSites m _ _ _ _

theorem depth_of_mem_connectors {s k : Site α} (hk : k ∈ s.connectors m) : k.depth = s.depth :=
  depth_of_mem_chainSites m hk

theorem map_tree_below (s : Site α) : (s.below m).map tree = s.tree.children := by
  have hbays := congrArg List.flatten (map_trees_bays m s.tree.id s.origin s.depth 0
    ⟨s.origin.y, m.minBlockWidth, none⟩ s.tree.slots)
  rw [below, List.map_append, map_tree_connectors, List.map_flatMap, List.flatMap_def, Tree.children,
    List.flatMap_def, ← hbays]
  rfl

theorem tree_mem_children {s k : Site α} (hk : k ∈ s.below m) : k.tree ∈ s.tree.children :=
  map_tree_below m s ▸ List.mem_map_of_mem hk

theorem mem_below_of_mem_bay {s k : Site α} {bay : Bay α} (hbay : bay ∈ s.bays m) (hk : k ∈ bay.sites) :
    k ∈ s.below m :=
  List.mem_append_left _ (List.mem_flatMap.2 ⟨bay, hbay, hk⟩)

theorem mem_below_of_mem_connectors {s k : Site α} (hk : k ∈ s.connectors m) : k ∈ s.below m :=
  List.mem_append_right _ hk

@[elab_as_elim]
theorem induction {P : Site α → Prop} (step : ∀ s, (∀ k ∈ s.below m, P k) → P s) (s : Site α) : P s := by
  obtain ⟨origin, depth, t⟩ := s
  induction t using Tree.induction generalizing origin depth with
  | step t ih => exact step _ fun k hk => ih k.tree (tree_mem_children m hk) k.origin k.depth

/-! ### The lists of a geometry -/

theorem blocks_geometry (s : Site α) :
    ((s.geometry m).blocks).Perm
      ((s.tree.id, s.rect m) :: (s.below m).flatMap fun k => (k.geometry m).blocks) := by
  have hbays : ((s.bays m).map (Bay.geometry m)).flatMap Geometry.blocks =
      ((s.bays m).flatMap Bay.sites).flatMap fun k => (k.geometry m).blocks := by
    rw [List.flatMap_map, List.flatMap_assoc]
    refine List.flatMap_congr fun bay _ => ?_
    change (bay.sites.map _).flatMap _ ++ [] = _
    rw [List.append_nil, List.flatMap_map]
  rw [geometry_eq, below, List.flatMap_append, ← hbays]
  change (_ ++ [_] ++ ((s.connectors m).map _).flatMap _).Perm _
  rw [List.append_assoc, List.flatMap_map]
  exact List.perm_middle

theorem slots_geometry (s : Site α) :
    ((s.geometry m).slots).Perm
      ((s.bays m).map Bay.box ++ (s.below m).flatMap fun k => (k.geometry m).slots) := by
  have hbays : ((s.bays m).map (Bay.geometry m)).flatMap Geometry.slots =
      (s.bays m).flatMap fun bay => (bay.sites.flatMap fun k => (k.geometry m).slots) ++ [bay.box] := by
    rw [List.flatMap_map]
    refine List.flatMap_congr fun bay _ => ?_
    change (bay.sites.map _).flatMap _ ++ _ = _
    rw [List.flatMap_map]
    rfl
  have hsplit := List.flatMap_append_perm (s.bays m)
    (fun bay => bay.sites.flatMap fun k => (k.geometry m).slots) fun bay => [bay.box]
  have hboxes : ((s.bays m).flatMap fun bay => [bay.box]) = (s.bays m).map Bay.box :=
    List.flatMap_pure_eq_map _ _
  have hwhole : (s.geometry m).slots =
      ((s.bays m).map (Bay.geometry m)).flatMap Geometry.slots ++
        (s.connectors m).flatMap fun k => (k.geometry m).slots := by
    rw [geometry_eq]
    change (_ ++ [] ++ ((s.connectors m).map _).flatMap _) = _
    rw [List.append_nil, List.flatMap_map]
    rfl
  rw [hwhole, hbays, below, List.flatMap_append, ← List.append_assoc, List.flatMap_assoc, ← hboxes]
  exact (hsplit.symm.trans List.perm_append_comm).append_right _

theorem ids_geometry (s : Site α) : ((s.geometry m).blocks.map Prod.fst).Perm s.tree.ids := by
  induction s using Site.induction m with
  | step s ih =>
    refine ((blocks_geometry m s).map Prod.fst).trans ?_
    rw [List.map_cons, List.map_flatMap, Tree.ids_eq, ← map_tree_below m s, List.flatMap_map]
    exact (List.Perm.flatMap_left _ fun k hk => ih k hk).cons _

theorem sublist_of_mem_flatMap {β γ : Type} {f : β → List γ} {x : β} {xs : List β} (h : x ∈ xs) :
    (f x).Sublist (xs.flatMap f) :=
  List.flatMap_def ▸ List.sublist_flatten_of_mem (List.mem_map_of_mem h)

theorem sublist_of_mem_bays {s : Site α} {bay : Bay α} (h : bay ∈ s.bays m) :
    (bay.geometry m).slots.Sublist (s.geometry m).slots := by
  rw [geometry_eq]
  refine (sublist_of_mem_flatMap (f := Geometry.slots) (List.mem_map_of_mem h)).trans ?_
  exact (List.sublist_append_left _ _).trans (List.sublist_append_left _ _)

theorem sublist_of_mem_below {s k : Site α} (h : k ∈ s.below m) :
    (k.geometry m).slots.Sublist (s.geometry m).slots := by
  rcases List.mem_append.1 h with hbays | hchain
  · obtain ⟨bay, hbay, hk⟩ := List.mem_flatMap.1 hbays
    refine List.Sublist.trans ?_ (sublist_of_mem_bays m hbay)
    refine (sublist_of_mem_flatMap (f := Geometry.slots) (List.mem_map_of_mem hk)).trans ?_
    exact List.sublist_append_left _ _
  · rw [geometry_eq m s]
    refine (sublist_of_mem_flatMap (f := Geometry.slots) (List.mem_map_of_mem hchain)).trans ?_
    exact List.sublist_append_right _ _

theorem before_box {s k : Site α} {bay : Bay α} (hbay : bay ∈ s.bays m) (hk : k ∈ bay.sites) {box : SlotBox α}
    (hbox : box ∈ (k.geometry m).slots) : [box, bay.box].Sublist (s.geometry m).slots := by
  have hinner : box ∈ (bay.sites.map (geometry m)).flatMap Geometry.slots :=
    List.mem_flatMap.2 ⟨_, List.mem_map_of_mem hk, hbox⟩
  have hlast : [box, bay.box].Sublist (bay.geometry m).slots :=
    (List.singleton_sublist.2 hinner).append (List.Sublist.refl [bay.box])
  exact hlast.trans (sublist_of_mem_bays m hbay)

end Site
end BlockCanvas
