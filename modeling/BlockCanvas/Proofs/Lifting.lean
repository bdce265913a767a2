import BlockCanvas.Canvas.Drag
import BlockCanvas.Proofs.Ledger
import BlockCanvas.Proofs.HitTesting

/-!
Lifting a block out of what owns it. How deep a tree lies changes the depths of its slots and nothing else of its
drawing (`Tree.sinks`), so a tree that is lifted to where it is drawn stays as it was drawn, and so does every tree
that it was not in (`Canvas.Reachable.lifted_in_place`).
-/
namespace BlockCanvas

/-! ### Drawing at another depth -/

namespace Geometry
variable {α : Type}

def sink (e : ℕ) (g : Geometry α) : Geometry α :=
  ⟨g.blocks, g.slots.map fun box => { box with depth := box.depth + e }⟩

theorem sink_append (e : ℕ) (g k : Geometry α) : (g ++ k).sink e = g.sink e ++ k.sink e :=
  congrArg (Geometry.mk (g.blocks ++ k.blocks)) List.map_append

variable [Add α] [Sub α] [LE α] [DecidableLE α]

def Sinks (m : Metrics α) (e : ℕ) (t : Tree) : Prop :=
  ∀ origin depth, ofTree m origin (depth + e) t =
    ((ofTree m origin depth t).1, (ofTree m origin depth t).2.sink e)

variable {m : Metrics α} {e : ℕ}

theorem ofEntries_sink {entries : List (Entry Tree)} (h : ∀ t ∈ entries.filterMap Entry.block?, Sinks m e t)
    (x : α) (depth : ℕ) (y width : α) :
    ofEntries m x (depth + e) y width entries =
      ((ofEntries m x depth y width entries).1, (ofEntries m x depth y width entries).2.1,
        (ofEntries m x depth y width entries).2.2.sink e) := by
  induction entries generalizing y width with
  | nil => rfl
  | cons entry entries ih =>
    cases entry with
    | block t =>
      have ht := h t List.mem_cons_self ⟨x, y⟩ (depth + 1)
      have hrest := ih fun k hk => h k (List.mem_cons_of_mem _ hk)
      simp only [ofEntries, Nat.add_right_comm depth e 1, ht, hrest, sink_append]
    | line text => simpa only [ofEntries] using ih h _ _

theorem ofChain_sink {ts : List Tree} (h : ∀ t ∈ ts, Sinks m e t) (origin : Point α) (depth : ℕ)
    (group : Rect α) :
    ofChain m origin (depth + e) group ts =
      ((ofChain m origin depth group ts).1, (ofChain m origin depth group ts).2.sink e) := by
  induction ts generalizing group with
  | nil => rfl
  | cons t ts ih =>
    have hrest := ih fun k hk => h k (List.mem_cons_of_mem _ hk)
    simp only [ofChain, h t List.mem_cons_self _ depth, hrest, sink_append]

theorem ofSlots_sink {slots : List (Slot Tree)} (h : ∀ t ∈ slots.flatMap Slot.children, Sinks m e t)
    (host : BlockId) (origin : Point α) (depth index : ℕ) (pen : Pen α) :
    ofSlots m host origin (depth + e) index pen slots =
      ((ofSlots m host origin depth index pen slots).1, (ofSlots m host origin depth index pen slots).2.sink e) := by
  induction slots generalizing index pen with
  | nil => rfl
  | cons slot slots ih =>
    have hrest := ih fun k hk => h k (List.mem_append_right _ hk)
    obtain ⟨name, ⟨child, literal⟩ | entries⟩ := slot
    · cases child with
      | none =>
        simp only [ofSlots, hrest, sink_append]
        rfl
      | some t =>
        have ht := fun origin => h t (List.mem_append_left _ (List.mem_singleton_self t)) origin (depth + 1)
        simp only [ofSlots, Nat.add_right_comm depth e 1, ht, hrest, sink_append]
        rfl
    · have hbody := ofEntries_sink fun k hk => h k (List.mem_append_left _ hk)
      simp only [ofSlots, hbody, hrest, sink_append]
      rfl

end Geometry

theorem Tree.sinks {α : Type} [Add α] [Sub α] [LE α] [DecidableLE α] (m : Metrics α) (e : ℕ) (t : Tree) :
    Geometry.Sinks m e t := by
  induction t using Tree.induction with
  | step t ih =>
    obtain ⟨id, face, slots, chain⟩ := t
    intro origin depth
    have hslots : ∀ k ∈ slots.flatMap Slot.children, Geometry.Sinks m e k :=
      fun k hk => ih k (List.mem_append_left _ hk)
    have hchain : ∀ k ∈ chain, Geometry.Sinks m e k := fun k hk => ih k (List.mem_append_right _ hk)
    simp only [Geometry.ofTree, Geometry.ofSlots_sink hslots, Geometry.ofChain_sink hchain, Geometry.sink_append]
    rfl

theorem Site.geometry_sunk {α : Type} [Add α] [Sub α] [LE α] [DecidableLE α] (m : Metrics α) (origin : Point α)
    (depth : ℕ) (t : Tree) :
    Site.geometry m ⟨origin, depth, t⟩ = (Site.geometry m ⟨origin, 0, t⟩).sink depth := by
  have hsink := congrArg Prod.snd (t.sinks m depth origin 0)
  rwa [Nat.zero_add] at hsink

/-! ### What a lifted block leaves alone -/

theorem Block.strip_of_notMem {id : BlockId} {b : Block} (h : id ∉ b.owned) : b.strip id = b := by
  have hslots : b.slots.map (Slot.without id) = b.slots :=
    map_without_of_notMem fun s hs hm => h (mem_owned.2 (Or.inl ⟨s, hs, hm⟩))
  have hchain : b.chain.filter (· != id) = b.chain :=
    List.filter_bne_eq_self_of_not_mem fun hm => h (mem_owned.2 (Or.inr hm))
  rw [strip, hslots, hchain]

namespace Canvas
variable {c : Canvas} {id x : BlockId} {p : Point Float} {b : Block} {t : Tree}

def lifted (c : Canvas) (id : BlockId) (p : Point Float) : Canvas :=
  ((c.detach id).makeFree id p).commit (.freed id)

theorem detachToFree_of_nested (hb : c.block? id = some b) (hnested : b.isFree = false)
    (hkind : b.kind.isStatement = true) (p : Point Float) : c.detachToFree id p = (c.lifted id p, .ok ()) := by
  have hfits : canNest .canvas (.block b.kind) = true := hkind
  simp [detachToFree, hb, hfits, hnested, lifted]

theorem block?_lifted (h : c.Linked none) (hb : c.block? id = some b) (p : Point Float) (x : BlockId) :
    (c.lifted id p).block? x = (c.block? x).map fun a =>
      if a.id = id then { a.strip id with owner := .free, position := p } else a.strip id := by
  change ((c.detach id).makeFree id p).block? x = _
  rw [block?_makeFree, detach_eq_without h hb, block?_without, Option.map_map]
  congr 1
  funext a
  by_cases ha : a.id = id <;> simp [Block.without, Block.strip, ha]

theorem block?_lifted_of_ne (h : c.Linked none) (hb : c.block? id = some b) (p : Point Float) (hne : x ≠ id)
    (hout : ¬ c.Above id x) : (c.lifted id p).block? x = c.block? x := by
  rw [block?_lifted h hb]
  cases ha : c.block? x with
  | none => rfl
  | some a =>
    have hid : a.id ≠ id := id_of_block? ha ▸ hne
    rw [Option.map_some, if_neg hid, Block.strip_of_notMem fun hm => hout (h.above_of_mem_owned ha hm)]

theorem tree?_lifted_of_notMem (h : c.Linked none) (hb : c.block? id = some b)
    (h' : (c.lifted id p).Linked none) (ht : c.tree? x = some t) (hout : id ∉ t.ids) :
    (c.lifted id p).tree? x = some t := by
  refine tree?_congr h h' ht fun y hy => block?_lifted_of_ne h hb p ?_ fun habove => ?_
  · rintro rfl
    exact hout hy
  · exact hout ((mem_ids_of_tree? h ht).2 (.head habove ((mem_ids_of_tree? h ht).1 hy)))

theorem tree?_lifted (h : c.Linked none) (hb : c.block? id = some b) (h' : (c.lifted id p).Linked none) :
    (c.lifted id p).tree? id = c.tree? id := by
  have hstrip : b.strip id = b :=
    Block.strip_of_notMem fun hm => h.not_cyclic id (.single (h.above_of_mem_owned hb hm))
  have hdown : ∀ k ∈ b.owned, (c.lifted id p).tree? k = c.tree? k := by
    intro k hk
    obtain ⟨t, ht, -⟩ := exists_tree?_of_owned h hb hk
    rw [ht]
    refine tree?_lifted_of_notMem h hb h' ht fun hm => ?_
    exact h.not_cyclic id (.tail' ((mem_ids_of_tree? h ht).1 hm) (h.above_of_mem_owned hb hk))
  rw [tree?_eq h', tree?_eq h, block?_lifted h hb, hb, Option.map_some, Option.map_some, Option.map_some,
    if_pos (id_of_block? hb), hstrip,
    List.map_congr_left fun s hs => Slot.filterMap_congr fun k hk => hdown k (Block.mem_owned.2 (Or.inl ⟨s, hs, hk⟩)),
    List.filterMap_congr fun k hk => hdown k (Block.mem_owned.2 (Or.inr hk))]

/-! ### What stays as it was drawn -/

section
variable {α : Type} [Add α] [Sub α] [LE α] [DecidableLE α] {m : Metrics α} {place : Root → Point α}

/-- Two geometries show the same of some blocks of a canvas, but for how deep the slots lie. -/
structure Agree (c : Canvas) (g g' : Geometry α) (ids : List BlockId) (e : ℕ) : Prop where
  block : ∀ x ∈ ids, ∃ rect, g.blockRect? x = some rect ∧ g'.blockRect? x = some rect
  slot : ∀ slot, slot.host ∈ ids → (c.slot? slot).isSome →
    ∃ rect, g.slotRect? slot = some rect ∧ g'.slotRect? slot = some rect
  box : ∀ box ∈ g.slots, box.slot.host ∈ ids → e ≤ box.depth ∧ { box with depth := box.depth - e } ∈ g'.slots

theorem Sited.agree (h : c.Linked none) {c' : Canvas} (h' : c'.Linked none) {origin : Point α} {e : ℕ}
    (hs : c.Sited m place ⟨origin, e, t⟩) (hs' : c'.Sited m place ⟨origin, 0, t⟩) :
    c.Agree (c.drawing m place) (c'.drawing m place) (c.subtree t.id) e := by
  have hsunk := Site.geometry_sunk m origin e t
  rw [subtree_of_tree? (hs.tree? h)]
  refine ⟨fun x hx => ?_, fun slot hhost hslot => ?_, fun box hbox hhost => ?_⟩
  · have hkey := (Site.ids_geometry m ⟨origin, e, t⟩).mem_iff.2 hx
    obtain ⟨⟨_, rect⟩, hmem, rfl⟩ := List.mem_map.1 hkey
    have hlook := hs.blockRect?_of_mem h hmem
    rw [hsunk] at hmem
    exact ⟨rect, hlook, hs'.blockRect?_of_mem h' hmem⟩
  · obtain ⟨box, hbox, rfl⟩ := hs.exists_mem_slots h hhost hslot
    have hlook := slotRect?_of_mem_slots h (hs.sublist_slots.subset hbox)
    rw [hsunk] at hbox
    obtain ⟨box', hbox', rfl⟩ := List.mem_map.1 hbox
    have hlook' := slotRect?_of_mem_slots h' (hs'.sublist_slots.subset hbox')
    exact ⟨box'.rect, hlook, hlook'⟩
  · have hmem := hs.mem_slots h hbox hhost
    rw [hsunk] at hmem
    obtain ⟨box', hbox', rfl⟩ := List.mem_map.1 hmem
    refine ⟨Nat.le_add_left _ _, ?_⟩
    rw [Nat.add_sub_cancel]
    exact hs'.sublist_slots.subset hbox'

end

structure Lifted (c c' : Canvas) (id : BlockId) : Prop where
  setting : c'.setting = (c.revision + 1, c.events ++ [.freed id], c.bounds, c.discardZone)
  roots : c'.roots = c.roots ++ [id]
  tree : c.Agree c.geometry c'.geometry (c.subtree id) (c.slotDepth id)
  others : ∀ r ∈ c.roots, id ∉ c.subtree r → c.Agree c.geometry c'.geometry (c.subtree r) 0

theorem setting_lifted (c : Canvas) (id : BlockId) (p : Point Float) :
    (c.lifted id p).setting = (c.revision + 1, c.events ++ [.freed id], c.bounds, c.discardZone) := by
  have hset := (setting_makeFree (c.detach id) id p).trans (setting_detach c id)
  simp only [setting, Prod.mk.injEq] at hset
  obtain ⟨hr, he, hb, hz⟩ := hset
  simp [setting, lifted, commit, hr, he, hb, hz]

section
variable (h : c.Linked none) (hb : c.block? id = some b) (h' : (c.lifted id p).Linked none)
  (hroots : (c.lifted id p).roots = c.roots ++ [id])
include h hb h' hroots

theorem agree_lifted {s : Site Float} (hs : c.Sited (.standard Float.ofNat) Root.position s) (hid : s.tree.id = id)
    (hp : s.origin = p) : c.Agree c.geometry (c.lifted id p).geometry (c.subtree id) (c.slotDepth id) := by
  have hlast : id ∈ (c.lifted id p).roots := by simp [hroots]
  obtain ⟨b', t, hb', ht, hs'⟩ := exists_root_sited h' (.standard Float.ofNat) Root.position hlast
  have hposition : b'.position = p := by
    rw [block?_lifted h hb, hb, Option.map_some, if_pos (id_of_block? hb)] at hb'
    rw [← Option.some.inj hb']
  subst hid hp
  rw [tree?_lifted h hb h', hs.tree? h] at ht
  obtain rfl := Option.some.inj ht
  rw [rootSite, hposition] at hs'
  rw [← hs.depth_eq h]
  exact hs.agree h h' hs'

theorem agree_lifted_of_root {r : BlockId} (hr : r ∈ c.roots) (hout : id ∉ c.subtree r) :
    c.Agree c.geometry (c.lifted id p).geometry (c.subtree r) 0 := by
  obtain ⟨a, t, ha, ht, hs⟩ := exists_root_sited h (.standard Float.ofNat) Root.position hr
  rw [subtree_of_tree? ht] at hout
  have hr' : r ∈ (c.lifted id p).roots := hroots ▸ List.mem_append_left _ hr
  obtain ⟨a', t', ha', ht', hs'⟩ := exists_root_sited h' (.standard Float.ofNat) Root.position hr'
  have hsame : (c.lifted id p).block? r = c.block? r := by
    refine block?_lifted_of_ne h hb p ?_ fun habove => hout ((mem_ids_of_tree? h ht).2 (.single habove))
    rintro rfl
    exact hout ((mem_ids_of_tree? h ht).2 (within_self c r))
  obtain rfl := Option.some.inj (ha.symm.trans (hsame.symm.trans ha'))
  obtain rfl := Option.some.inj ((tree?_lifted_of_notMem h hb h' ht hout).symm.trans ht')
  have hagree := hs.agree h h' hs'
  rwa [id_of_tree? h ht] at hagree

end

theorem lifted_of_sited (h : c.Sound none) (hb : c.block? id = some b) (hnested : b.isFree = false)
    (hkind : b.kind.isStatement = true) {s : Site Float}
    (hs : c.Sited (.standard Float.ofNat) Root.position s) (hid : s.tree.id = id) :
    c.Lifted (c.lifted id s.origin) id := by
  have hok := detachToFree_of_nested hb hnested hkind s.origin
  have hsound : (c.lifted id s.origin).Sound none := (hok ▸ h.detachToFree id s.origin).of_ok.1
  have hroot : id ∉ c.roots := by
    refine notMem_roots_of_owner? h.toLinked (o := b.owner) ?_ (by simpa [Block.isFree] using hnested)
    rw [owner?, hb, Option.map_some]
  have hroots : (c.lifted id s.origin).roots = c.roots ++ [id] :=
    congrArg Ledger.roots (ledger_lift h.toLinked hb hroot s.origin)
  exact
    { setting := setting_lifted c id s.origin
      roots := hroots
      tree := agree_lifted h.toLinked hb hsound.toLinked hroots hs hid rfl
      others := fun _ hr hout => agree_lifted_of_root h.toLinked hb hsound.toLinked hroots hr hout }

/-- Double activation of a statement that is not free leaves all that is drawn where it is; of an operation it is
refused. -/
theorem Reachable.lifted_in_place (h : c.Reachable) {kind : Kind} {o : Owner} (hk : c.kind? id = some kind)
    (ho : c.owner? id = some o) (hnested : o ≠ .free) :
    if kind.isStatement then
      ∃ rect c', c.geometry.blockRect? id = some rect ∧ Drag.activate c id = (c', .freed id rect.origin) ∧
        c.Lifted c' id
    else Drag.activate c id = (c, .rejected (.rejected kind .canvas)) := by
  have hs := h.sound
  obtain ⟨b, hb, rfl⟩ := Linked.exists_block_of_owner? ho
  obtain rfl : b.kind = kind := by rwa [kind?, hb, Option.map_some, Option.some.injEq] at hk
  have hheld : b.isFree = false := by simpa [Block.isFree] using hnested
  cases hkind : b.kind.isStatement with
  | false =>
    have hfits : canNest .canvas (.block b.kind) = false := hkind
    simp [Drag.activate, detachToFree, hb, hheld, hfits]
  | true =>
    obtain ⟨s, hsited, hid⟩ := exists_sited hs.toLinked (.standard Float.ofNat) Root.position hb
    have hrect : c.geometry.blockRect? id = some (s.rect (.standard Float.ofNat)) :=
      hid ▸ blockRect?_of_sited hs.toLinked hsited
    have hactivate : Drag.activate c id = (c.lifted id s.origin, .freed id s.origin) := by
      have hok := detachToFree_of_nested hb hheld hkind s.origin
      have horigin : ((c.geometry.blockRect? id).map Rect.origin).getD (c.anchor id) = s.origin := by
        rw [hrect]
        rfl
      simp [Drag.activate, hb, hheld, horigin, hok]
    exact (if_pos rfl).mpr ⟨_, _, hrect, hactivate, lifted_of_sited hs hb hheld hkind hsited hid⟩

theorem lifted_in_place_branching :
    let c := Edit.run empty
      [.instantiate .print .origin, .instantiate .whileLoop ⟨7, 9⟩, .instantiateInto .ifBranch ⟨2, 1⟩,
        .instantiate .elifBranch .origin, .attachConnector 4 3, .instantiateInto .operation ⟨4, 0⟩]
    c.Reachable ∧ c.owner? 4 = some (.chain 3) ∧ c.subtree 4 = [4, 5] ∧ c.slotDepth 4 = 1 ∧
      (∃ rect c', c.geometry.blockRect? 4 = some rect ∧ Drag.activate c 4 = (c', .freed 4 rect.origin) ∧
        c.Lifted c' 4) ∧
      Drag.activate c 5 = (c, .rejected (.rejected .operation .canvas)) := by
  intro c
  have hc : c.Reachable := Reachable.run (.start _) _
  have helif := Reachable.lifted_in_place hc (show c.kind? 4 = some .elifBranch by decide)
    (show c.owner? 4 = some (.chain 3) by decide) nofun
  have hoperation := Reachable.lifted_in_place hc (show c.kind? 5 = some .operation by decide)
    (show c.owner? 5 = some (.slot ⟨4, 0⟩) by decide) nofun
  exact ⟨hc, by decide, by decide, by decide, helif, hoperation⟩

end Canvas
end BlockCanvas
