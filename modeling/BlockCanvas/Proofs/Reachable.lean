import BlockCanvas.Proofs.Edits
import BlockCanvas.Proofs.Traversal
import BlockCanvas.Canvas.Audit

/-!
The canvases that edits lead to. All of them are sound, and what soundness comes to for somebody who
only reads the canvas is `Consistent`: every block is mentioned once, ownership is a forest, and every
block sits where it may.
-/
namespace BlockCanvas.Canvas
variable {c : Canvas} {id x : BlockId}

def Edit.run (c : Canvas) (edits : List Edit) : Canvas :=
  edits.foldl (fun c e => (e.apply c).1) c

/-- The canvases that edits lead to from an empty one. Its bounds and its discard zone are open to
everybody, and its queued events may be taken at any time. -/
inductive Reachable : Canvas → Prop
  | start (bounds : Rect Float) : Reachable (withBounds bounds)
  | edit {c : Canvas} (e : Edit) : Reachable c → Reachable (e.apply c).1
  | drain {c : Canvas} : Reachable c → Reachable c.drainEvents.2
  | frame {c : Canvas} (bounds : Rect Float) (discardZone : Option (Rect Float)) :
      Reachable c → Reachable { c with bounds, discardZone }

theorem sound_withBounds (bounds : Rect Float) : (withBounds bounds).Sound none := by
  have hnone : ∀ x, (withBounds bounds).owner? x = none := fun _ => rfl
  have hlisted : ∀ o, (withBounds bounds).listed o = [] := by
    intro o
    cases o <;> rfl
  have hblocks : (withBounds bounds).blocks = [] := rfl
  exact ⟨⟨.nil, by simp [hblocks], by simp [hlisted], by simp [hlisted, hnone], by simp,
    by simp [hblocks]⟩, by simp [hblocks]⟩

theorem Reachable.sound (h : c.Reachable) : c.Sound none := by
  induction h with
  | start bounds => exact sound_withBounds bounds
  | edit e _ ih => exact (e.step ih).sound ih
  | drain _ ih => exact ih.congr rfl rfl rfl
  | frame _ _ _ ih => exact ih.congr rfl rfl rfl

theorem Reachable.run (h : c.Reachable) (edits : List Edit) : (Edit.run c edits).Reachable := by
  induction edits generalizing c with
  | nil => exact h
  | cons e edits ih => exact ih (.edit e h)

/-! ### Every mention counted -/

theorem nodup_mentions (h : c.Linked none) : c.mentions.Nodup := by
  have habove : ∀ b ∈ c.blocks, ∀ k ∈ b.owned, c.Above k b.id := fun b hb k hk =>
    h.above_of_mem_owned (block?_of_mem h.ascending hb) hk
  refine List.nodup_append.2 ⟨h.nodup .free, List.nodup_flatMap.2 ⟨fun b hb => ?_, ?_⟩, ?_⟩
  · exact nodup_owned h (block?_of_mem h.ascending hb)
  · refine h.ascending.imp_of_mem fun {a b} ha hb hlt k hk hk' => ?_
    exact Nat.ne_of_lt hlt (above_unique (habove a ha k hk) (habove b hb k hk'))
  · rintro k hk _ hk' rfl
    obtain ⟨b, hb, hkb⟩ := List.mem_flatMap.1 hk'
    exact not_above_of_free (h.owner?_of_mem_listed (o := .free) hk) (habove b hb k hkb)

theorem mem_mentions_iff (h : c.Linked none) : x ∈ c.mentions ↔ ∃ b ∈ c.blocks, b.id = x := by
  have hlive : (∃ o, x ∈ c.listed o) ↔ ∃ b ∈ c.blocks, b.id = x := by
    constructor
    · rintro ⟨o, ho⟩
      obtain ⟨b, hb, -⟩ := Linked.exists_block_of_owner? (h.owner?_of_mem_listed ho)
      exact ⟨b, h.block?_iff.1 hb⟩
    · rintro ⟨b, hb, rfl⟩
      exact ⟨b.owner, h.mem_listed_of_owner? (by rw [owner?, block?_of_mem h.ascending hb]; rfl)⟩
  rw [← hlive, mentions, List.mem_append, List.mem_flatMap]
  constructor
  · rintro (hx | ⟨b, hb, hx⟩)
    · exact ⟨.free, hx⟩
    · obtain ⟨o, -, ho⟩ := exists_listed_of_mem_owned (block?_of_mem h.ascending hb) hx
      exact ⟨o, ho⟩
  · rintro ⟨o, ho⟩
    cases hh : o.host? with
    | none =>
      obtain rfl : o = .free := by cases o <;> simp_all [Owner.host?]
      exact Or.inl ho
    | some host =>
      obtain ⟨b, hb, hx⟩ := exists_host_of_mem_listed ho hh
      exact Or.inr ⟨b, mem_of_block? hb, hx⟩

/-! ### The check of the invariants -/

theorem Sound.elseBeforeEnd (h : c.Sound none) {b : Block} (hb : b ∈ c.blocks) :
    c.elseBeforeEnd b = false := by
  refine List.any_eq_false.2 fun k hk => ?_
  have hne : b.chain ≠ [] := by
    intro he
    simp [he] at hk
  have hp := (h.typed b hb).elseLast
  rw [← List.dropLast_append_getLast hne, List.pairwise_append] at hp
  simpa [isElse] using hp.2.2 k hk _ (List.mem_singleton_self _)

theorem Sound.brokenLink? (h : c.Sound none) {b : Block} (hb : b ∈ c.blocks) :
    c.brokenLink? b = none := by
  have hid := block?_of_mem h.ascending hb
  have hslots : (b.slots.zipIdx.findSome? fun s => c.staleChild? b.id s.2 s.1) = none := by
    refine List.findSome?_eq_none_iff.2 fun s hs => List.find?_eq_none.2 fun k hk => ?_
    have hm := (mem_listed_slot hid).2 ⟨s.1, List.mem_zipIdx_iff_getElem?.1 hs, hk⟩
    have ho := h.owner?_of_mem_listed hm
    rw [owner?] at ho
    simp [ho]
  have hchain : c.staleConnector? b = none := by
    refine List.find?_eq_none.2 fun k hk => ?_
    have ho := h.owner?_of_mem_listed ((mem_listed_chain hid).2 hk)
    rw [owner?] at ho
    simp [ho]
  simp only [Canvas.brokenLink?, hslots, hchain, h.elseBeforeEnd hb, Bool.false_eq_true, if_false]

theorem Linked.owners (h : c.Linked none) {b : Block} (hb : b ∈ c.blocks) : c.owners b.id = 1 :=
  List.count_eq_one_of_mem (nodup_mentions h) ((mem_mentions_iff h).2 ⟨b, hb, rfl⟩)

theorem Sound.violation? (h : c.Sound none) : c.violation? = none := by
  have hlinks : c.blocks.findSome? c.brokenLink? = none :=
    List.findSome?_eq_none_iff.2 fun b hb => h.brokenLink? hb
  have hcounts : c.blocks.findSome? c.wrongOwnerCount? = none := by
    refine List.findSome?_eq_none_iff.2 fun b hb => ?_
    simp [wrongOwnerCount?, h.owners hb]
  have hlive : (c.mentions.all fun id => (c.block? id).isSome) = true := by
    refine List.all_eq_true.2 fun x hx => ?_
    obtain ⟨b, hb, rfl⟩ := (mem_mentions_iff h.toLinked).1 hx
    rw [block?_of_mem h.ascending hb]
    rfl
  simp only [Canvas.violation?, hlinks, hcounts, hlive, if_true]

/-! ### What a reader of the canvas sees -/

structure Consistent (c : Canvas) : Prop where
  keyed : ∀ b ∈ c.blocks, c.block? b.id = some b
  once : ∀ b ∈ c.blocks, c.mentions.count b.id = 1
  live : ∀ x ∈ c.mentions, ∃ b ∈ c.blocks, b.id = x
  link : ∀ b ∈ c.blocks, ∀ o, b.id ∈ c.listed o ↔ o = b.owner
  rooted : ∀ b ∈ c.blocks, ∃ root ∈ c.roots, c.owner? root = some .free ∧ c.Within b.id root
  acyclic : ∀ x, ¬ Relation.TransGen c.Above x x
  fits : ∀ b ∈ c.blocks, ∀ s ∈ b.slots, ∀ k ∈ s.children,
    ∃ kind, c.kind? k = some kind ∧ canNest (.slot b.kind s.shape) (.block kind) = true
  template : ∀ b ∈ c.blocks,
    b.slots.map Slot.signature = (Template.slots (β := BlockId) b.kind).map Slot.signature
  heads : ∀ b ∈ c.blocks, b.chain ≠ [] → b.kind = .ifBranch
  connectors : ∀ b ∈ c.blocks, ∀ k ∈ b.chain,
    c.kind? k = some .elifBranch ∨ c.kind? k = some .elseBranch
  oneElse : ∀ b ∈ c.blocks, (b.chain.filter c.isElse).length ≤ 1
  elseLast : ∀ b ∈ c.blocks, ∀ before k after, b.chain = before ++ k :: after →
    c.kind? k = some .elseBranch → after = []
  fresh : ∀ b ∈ c.blocks, b.id < c.nextId
  verified : c.violation? = none

theorem length_filter_le_one {p : BlockId → Bool} {ks : List BlockId}
    (h : ks.Pairwise fun k _ => p k = false) : (ks.filter p).length ≤ 1 := by
  induction ks with
  | nil => simp
  | cons k ks ih =>
    obtain ⟨hk, hks⟩ := List.pairwise_cons.1 h
    cases ks with
    | nil => exact List.length_filter_le _ _
    | cons k' ks => rw [List.filter_cons_of_neg (by simp [hk k'])]; exact ih hks

theorem consistent_of_sound (h : c.Sound none) : c.Consistent where
  keyed b hb := block?_of_mem h.ascending hb
  once b hb := h.owners hb
  live x hx := (mem_mentions_iff h.toLinked).1 hx
  link b hb o := by
    have ho : c.owner? b.id = some b.owner := by
      rw [owner?, block?_of_mem h.ascending hb, Option.map_some]
    simp [h.link, ho, eq_comm]
  rooted b hb := by
    obtain ⟨root, hf, hw⟩ := (h.grounded b hb).exists_root
    exact ⟨root, h.mem_listed_of_owner? hf, hf, hw⟩
  acyclic := h.not_cyclic
  fits b hb := (h.typed b hb).nests
  template b hb := (h.typed b hb).slots
  heads b hb := (h.typed b hb).heads
  connectors b hb k hk := by
    obtain ⟨kind, hkind, hconn⟩ := (h.typed b hb).connectors k hk
    simpa [hkind, Kind.isConnector] using hconn
  oneElse b hb := by
    refine length_filter_le_one ((h.typed b hb).elseLast.imp fun hne => ?_)
    simpa [isElse] using hne
  elseLast b hb before k after hsplit hk := by
    have hp := (h.typed b hb).elseLast
    rw [hsplit, List.pairwise_append, List.pairwise_cons] at hp
    refine List.eq_nil_iff_forall_not_mem.2 fun k' hk' => ?_
    exact hp.2.1.1 k' hk' hk
  fresh := h.fresh
  verified := h.violation?

/-- Whatever edits are made, and whether or not they are refused, ownership stays in order. -/
theorem Reachable.consistent (h : c.Reachable) : c.Consistent :=
  consistent_of_sound h.sound

theorem consistent_branching :
    let edits : List Edit :=
      [.instantiate .ifBranch .origin, .instantiate .elseBranch .origin, .attachConnector 2 1,
        .instantiateInto .assignment ⟨1, 0⟩, .instantiateInto .assignment ⟨1, 0⟩,
        .instantiate .elifBranch .origin, .attachConnector 5 1, .attach 1 ⟨2, 0⟩]
    let c := Edit.run (withBounds ⟨0, 0, 1, 1⟩) edits
    c.roots = [1, 3] ∧ (c.block? 1).map Block.chain = some [5, 2] ∧ c.Reachable ∧ c.Consistent := by
  intro edits c
  have hc : c.Reachable := Reachable.run (.start _) edits
  exact ⟨by decide, by decide, hc, Reachable.consistent hc⟩

end BlockCanvas.Canvas
