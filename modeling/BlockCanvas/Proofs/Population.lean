import BlockCanvas.Proofs.Placement
import Mathlib.Data.List.Nodup

/-!
Blocks that come and go. A fresh block is free and owns nothing; a subtree is removed whole, so that
nothing that stays owns, or is owned by, a block that went.
-/
namespace BlockCanvas

namespace Template

theorem kind_face (kind : Kind) : (face kind).kind = kind := by
  cases kind <;> rfl

theorem children_eq_nil (kind : Kind) :
    ∀ s ∈ Template.slots (β := BlockId) kind, s.children = [] := by
  cases kind <;> decide

theorem operator_face {kind : Kind} (h : kind = .operation) : (face kind).operator ≠ none := by
  subst h
  decide

end Template

namespace Canvas
variable {c c' : Canvas} {id x : BlockId} {loose : Option BlockId}

/-! ### A fresh block -/

def newborn (c : Canvas) (kind : Kind) (p : Point Float) : Block :=
  { Template.face kind with
    id := c.nextId, slots := Template.slots kind, chain := [], owner := .free, position := p }

theorem Linked.block?_nextId (h : c.Linked loose) : c.block? c.nextId = none := by
  rw [block?, List.find?_eq_none]
  intro b hb
  simpa using Nat.ne_of_lt (h.fresh b hb)

theorem block?_spawn (h : c.Linked loose) (kind : Kind) (p : Point Float) (x : BlockId) :
    (c.spawn kind p).block? x = if x = c.nextId then some (c.newborn kind p) else c.block? x := by
  have happ : (c.spawn kind p).block? x =
      (c.block? x).or ([c.newborn kind p].find? fun b => b.id == x) := List.find?_append
  rw [happ]
  by_cases hx : x = c.nextId
  · subst hx
    simp [h.block?_nextId, newborn]
  · have hne : c.nextId ≠ x := Ne.symm hx
    simp [newborn, hx, hne]

theorem listed_spawn (h : c.Linked loose) (kind : Kind) (p : Point Float) (o : Owner) :
    (c.spawn kind p).listed o = if o = .free then c.roots ++ [c.nextId] else c.listed o := by
  cases o with
  | free => rfl
  | slot place =>
    rw [listed, slot?, block?_spawn h, listed, slot?]
    by_cases hp : place.host = c.nextId
    · rw [hp, h.block?_nextId]
      cases hs : (c.newborn kind p).slots[place.index]? with
      | none => simp [hs]
      | some s => simp [hs, Template.children_eq_nil kind s (List.mem_of_getElem? hs)]
    · simp [hp]
  | chain head =>
    rw [listed, block?_spawn h, listed]
    by_cases hp : head = c.nextId
    · simp [hp, h.block?_nextId, newborn]
    · simp [hp]

theorem owner?_spawn (h : c.Linked loose) (kind : Kind) (p : Point Float) (x : BlockId) :
    (c.spawn kind p).owner? x = if x = c.nextId then some .free else c.owner? x := by
  rw [owner?, block?_spawn h]
  split <;> simp [newborn, owner?]

theorem kind?_spawn_of_ne (h : c.Linked loose) (kind : Kind) (p : Point Float)
    (hx : x ≠ c.nextId) : (c.spawn kind p).kind? x = c.kind? x := by
  rw [kind?, block?_spawn h, if_neg hx, kind?]

theorem Block.typed_newborn (kindOf : BlockId → Option Kind) (c : Canvas) (kind : Kind)
    (p : Point Float) : (c.newborn kind p).Typed kindOf where
  slots := by simp [newborn, Template.kind_face]
  operator := by
    simp only [newborn, Template.kind_face]
    exact Template.operator_face
  nests s hs k hk := by simp [Template.children_eq_nil kind s hs] at hk
  heads := by simp [newborn]
  connectors := by simp [newborn]
  elseLast := by simp [newborn]

theorem Sound.spawn (h : c.Sound none) (kind : Kind) (p : Point Float) :
    (c.spawn kind p).Sound none := by
  have hnone := h.block?_nextId
  have hold : ∀ o, c.nextId ∉ c.listed o := by
    intro o hm
    obtain ⟨b, hb, -⟩ := Linked.exists_block_of_owner? (h.owner?_of_mem_listed hm)
    simp [hnone] at hb
  have hmem : ∀ b ∈ (c.spawn kind p).blocks, b ∈ c.blocks ∨ b = c.newborn kind p := by
    intro b hb
    rcases List.mem_append.1 hb with hb | hb
    · exact Or.inl hb
    · exact Or.inr (List.mem_singleton.1 hb)
  refine ⟨⟨?ascending, ?fresh, ?nodup, ?link, by simp, ?grounded⟩, ?typed⟩
  case ascending =>
    refine List.pairwise_append.2 ⟨h.ascending, List.pairwise_singleton _ _, fun a ha b hb => ?_⟩
    obtain rfl := List.mem_singleton.1 hb
    exact h.fresh a ha
  case fresh =>
    intro b hb
    rcases hmem b hb with hb | rfl
    · exact Nat.lt_succ_of_lt (h.fresh b hb)
    · exact Nat.lt_succ_self _
  case nodup =>
    intro o
    rw [listed_spawn h.toLinked]
    split
    · rw [List.nodup_append_comm, List.singleton_append, List.nodup_cons]
      exact ⟨hold .free, h.nodup .free⟩
    · exact h.nodup o
  case link =>
    intro o x
    have hl := h.link o x
    -- the new block is in the list of free blocks, and no list had it before
    rw [listed_spawn h.toLinked, owner?_spawn h.toLinked]
    by_cases hx : x = c.nextId
    · subst hx
      by_cases ho : o = .free
      · simp [ho]
      · simp [ho, Ne.symm ho, hold]
    · by_cases ho : o = .free
      · subst ho
        simpa [hx, listed] using hl
      · simpa [hx, ho] using hl
  case grounded =>
    intro b hb
    rcases hmem b hb with hb | rfl
    · refine (h.grounded b hb).mono fun y => ?_
      rw [owner?_spawn h.toLinked]
      split
      · exact Or.inr rfl
      · exact Or.inl rfl
    · exact .free (by rw [owner?_spawn h.toLinked]; simp [newborn])
  case typed =>
    intro b hb
    rcases hmem b hb with hb | rfl
    · refine (h.typed b hb).congr fun k hk => kind?_spawn_of_ne h.toLinked kind p fun he => ?_
      obtain ⟨a, ha⟩ := h.exists_block_of_mem_owned (block?_of_mem h.ascending hb) hk
      simp [he, hnone] at ha
    · exact Block.typed_newborn _ c kind p

/-! ### Removing a subtree -/

theorem block?_filter {p : BlockId → Bool} (hb : c'.blocks = c.blocks.filter fun b => p b.id)
    (x : BlockId) : c'.block? x = if p x then c.block? x else none := by
  rw [block?, hb, block?, List.find?_filter]
  by_cases hx : p x = true
  · rw [if_pos hx]
    congr 1
    funext b
    by_cases he : b.id = x <;> simp [he, hx]
  · rw [if_neg hx, List.find?_eq_none]
    intro b _
    by_cases he : b.id = x <;> simp [he, hx]

def prune (c : Canvas) (id : BlockId) : Canvas :=
  { c.detach id with
    blocks := (c.detach id).blocks.filter fun b => !(c.subtree id).contains b.id
    roots := (c.detach id).roots.filter fun r => r != id }

section Prune
variable (h : c.Linked none) {b : Block} (hb : c.block? id = some b)
include h hb

theorem block?_prune (x : BlockId) :
    (c.prune id).block? x = if !(c.subtree id).contains x then (c.without id).block? x else none := by
  refine block?_filter (p := fun y => !(c.subtree id).contains y) ?_ x
  rw [prune, detach_eq_without h hb]

theorem contains_subtree (x : BlockId) :
    (!(c.subtree id).contains x) = true ↔ ¬ c.Within x id := by
  rw [← mem_subtree_iff h hb]
  simp

theorem owner?_prune_of_not_within (hx : ¬ c.Within x id) :
    (c.prune id).owner? x = c.owner? x := by
  have hne : x ≠ id := fun he => hx (he ▸ within_self c x)
  rw [owner?, block?_prune h hb, if_pos ((contains_subtree h hb x).2 hx), ← owner?]
  exact owner?_without_of_ne c hne

theorem owner?_prune_of_within (hx : c.Within x id) : (c.prune id).owner? x = none := by
  have hc : ¬ (!(c.subtree id).contains x) = true := by
    rw [contains_subtree h hb]
    exact fun hn => hn hx
  rw [owner?, block?_prune h hb, if_neg hc, Option.map_none]

theorem kind?_prune_of_not_within (hx : ¬ c.Within x id) : (c.prune id).kind? x = c.kind? x := by
  rw [kind?, block?_prune h hb, if_pos ((contains_subtree h hb x).2 hx), ← kind?_without c id, kind?]

theorem listed_prune {o : Owner} (ho : ∀ host, o.host? = some host → ¬ c.Within host id) :
    (c.prune id).listed o = (c.listed o).filter (· != id) := by
  rw [← listed_without]
  have hkeep : ∀ host, o.host? = some host → (c.prune id).block? host = (c.without id).block? host :=
    fun host hh => by rw [block?_prune h hb, if_pos ((contains_subtree h hb host).2 (ho host hh))]
  cases o with
  | free =>
    have hr : (c.prune id).roots = (c.roots.filter (· != id)).filter (· != id) := by
      rw [prune, detach_eq_without h hb]
      rfl
    rw [listed, hr, List.filter_filter]
    simp [listed, without]
  | slot place => rw [listed, slot?, hkeep place.host rfl, listed, slot?]
  | chain head => rw [listed, hkeep head rfl, listed]

theorem listed_prune_of_within {o : Owner} {host : BlockId} (ho : o.host? = some host)
    (hw : c.Within host id) : (c.prune id).listed o = [] := by
  have hnone := owner?_prune_of_within h hb hw
  rw [owner?, Option.map_eq_none_iff] at hnone
  refine List.eq_nil_iff_forall_not_mem.2 fun x hx => ?_
  obtain ⟨a, ha, -⟩ := exists_host_of_mem_listed hx ho
  simp [hnone] at ha

theorem mem_listed_prune (o : Owner) :
    x ∈ (c.prune id).listed o ↔ c.owner? x = some o ∧ ¬ c.Within x id := by
  by_cases ho : ∃ host, o.host? = some host ∧ c.Within host id
  · obtain ⟨host, hh, hw⟩ := ho
    rw [listed_prune_of_within h hb hh hw]
    simp only [List.not_mem_nil, false_iff, not_and, not_not]
    exact fun hx => hw.head (above_of_owner? hx hh)
  · have ho' : ∀ host, o.host? = some host → ¬ c.Within host id :=
      fun host hh hw => ho ⟨host, hh, hw⟩
    rw [listed_prune h hb ho', List.mem_filter, h.link]
    simp only [ne_eq, reduceCtorEq, not_false_eq_true, and_true, bne_iff_ne]
    refine and_congr_right fun hx => not_congr ⟨?_, fun hw => ?_⟩
    · rintro rfl
      exact within_self c x
    · -- a way up to the top would pass the host of the list
      rcases Relation.ReflTransGen.cases_head hw with he | ⟨y, hy, hyw⟩
      · exact he
      · obtain ⟨o', ho'x, hy'⟩ := exists_owner_of_above hy
        obtain rfl := Option.some.inj (hx.symm.trans ho'x)
        exact absurd hyw (ho' y hy')

end Prune

theorem Grounded.prune (h : c.Linked none) {b : Block} (hb : c.block? id = some b)
    (hg : c.Grounded x) (hx : ¬ c.Within x id) : (c.prune id).Grounded x := by
  induction hg with
  | free hf => exact .free ((owner?_prune_of_not_within h hb hx).trans hf)
  | owned ho hh _ ih =>
    refine .owned ((owner?_prune_of_not_within h hb hx).trans ho) hh (ih fun hw => hx ?_)
    exact hw.head (above_of_owner? ho hh)

theorem Sound.prune (h : c.Sound none) {b : Block} (hb : c.block? id = some b) :
    (c.prune id).Sound none := by
  have hwithout := h.toLinked.without hb
  have hmem : ∀ a ∈ (c.prune id).blocks, a ∈ (c.without id).blocks ∧ ¬ c.Within a.id id := by
    intro a ha
    obtain ⟨ha, hc⟩ := List.mem_filter.1 ha
    exact ⟨detach_eq_without h.toLinked hb ▸ ha, (contains_subtree h.toLinked hb a.id).1 hc⟩
  have hasc : (c.prune id).blocks.Pairwise fun a b => a.id < b.id := by
    rw [Canvas.prune, detach_eq_without h.toLinked hb]
    exact hwithout.ascending.filter _
  refine ⟨⟨hasc, ?fresh, ?nodup, ?link, by simp, ?grounded⟩, ?typed⟩
  case fresh =>
    intro a ha
    have hn : (c.prune id).nextId = c.nextId := by
      rw [Canvas.prune, detach_eq_without h.toLinked hb]
      rfl
    exact hn ▸ hwithout.fresh a (hmem a ha).1
  case nodup =>
    intro o
    -- a list of a block that goes is gone with it, and any other loses only what goes
    by_cases ho : ∃ host, o.host? = some host ∧ c.Within host id
    · obtain ⟨host, hh, hw⟩ := ho
      rw [listed_prune_of_within h.toLinked hb hh hw]
      exact List.nodup_nil
    · rw [listed_prune h.toLinked hb fun host hh hw => ho ⟨host, hh, hw⟩]
      exact (h.nodup o).filter _
  case link =>
    intro o x
    rw [mem_listed_prune h.toLinked hb]
    by_cases hw : c.Within x id
    · simp [owner?_prune_of_within h.toLinked hb hw, hw]
    · simp [owner?_prune_of_not_within h.toLinked hb hw, hw]
  case grounded =>
    intro a ha
    obtain ⟨ha', hw⟩ := hmem a ha
    obtain ⟨a, ha₀, rfl⟩ := List.mem_map.1 ha'
    exact (h.grounded a ha₀).prune h.toLinked hb hw
  case typed =>
    intro a ha
    obtain ⟨ha', hw⟩ := hmem a ha
    obtain ⟨a, ha₀, rfl⟩ := List.mem_map.1 ha'
    refine ((h.typed a ha₀).without id).congr fun k hk => ?_
    have hk' : (c.prune id).block? a.id = some (a.without id) := block?_of_mem hasc ha
    obtain ⟨o, -, hm⟩ := exists_listed_of_mem_owned hk' hk
    exact kind?_prune_of_not_within h.toLinked hb ((mem_listed_prune h.toLinked hb o).1 hm).2

end Canvas
end BlockCanvas
