import BlockCanvas.Proofs.Store
import Mathlib.Data.List.Perm.Subperm
import Mathlib.Logic.Relation

/-!
The ownership invariant. Every block is listed by exactly the owner it names, every way up ends at a
free block, and every block fits where it sits. While an edit moves a block, that block is loose: it is
listed nowhere and calls itself free.

From the invariant the way up is read without its bound: `isWithin_iff` and `ancestry_eq`.
-/
namespace BlockCanvas

structure Block.Typed (kindOf : BlockId → Option Kind) (b : Block) : Prop where
  slots : b.slots.map Slot.signature = (Template.slots (β := BlockId) b.kind).map Slot.signature
  operator : b.kind = .operation → b.operator ≠ none
  nests : ∀ s ∈ b.slots, ∀ k ∈ s.children,
    ∃ kind, kindOf k = some kind ∧ canNest (.slot b.kind s.shape) (.block kind) = true
  heads : b.chain ≠ [] → b.kind = .ifBranch
  connectors : ∀ k ∈ b.chain, ∃ kind, kindOf k = some kind ∧ kind.isConnector = true
  elseLast : b.chain.Pairwise fun k _ => kindOf k ≠ some .elseBranch

namespace Canvas
variable {c c' : Canvas} {id x y : BlockId} {loose : Option BlockId}

def Above (c : Canvas) (x y : BlockId) : Prop :=
  c.parent? x = some y

def Within (c : Canvas) : BlockId → BlockId → Prop :=
  Relation.ReflTransGen c.Above

inductive Grounded (c : Canvas) : BlockId → Prop
  | free {id : BlockId} : c.owner? id = some .free → Grounded c id
  | owned {id host : BlockId} {o : Owner} :
      c.owner? id = some o → o.host? = some host → Grounded c host → Grounded c id

structure Linked (c : Canvas) (loose : Option BlockId) : Prop where
  ascending : c.blocks.Pairwise fun a b => a.id < b.id
  fresh : ∀ b ∈ c.blocks, b.id < c.nextId
  nodup : ∀ o, (c.listed o).Nodup
  link : ∀ o x, x ∈ c.listed o ↔ c.owner? x = some o ∧ loose ≠ some x
  out : ∀ x, loose = some x → c.owner? x = some .free
  grounded : ∀ b ∈ c.blocks, c.Grounded b.id

structure Sound (c : Canvas) (loose : Option BlockId) : Prop extends Linked c loose where
  typed : ∀ b ∈ c.blocks, b.Typed c.kind?

/-! ### The way up -/

theorem above_of_owner? {o : Owner} (h : c.owner? x = some o) (ho : o.host? = some y) :
    c.Above x y := by
  simp [Above, parent?_eq, h, ho]

theorem exists_owner_of_above (h : c.Above x y) :
    ∃ o, c.owner? x = some o ∧ o.host? = some y := by
  rw [Above, parent?_eq] at h
  exact Option.bind_eq_some_iff.1 h

theorem above_unique {z : BlockId} (h : c.Above x y) (h' : c.Above x z) : y = z :=
  Option.some.inj (h.symm.trans h')

theorem not_above_of_free (h : c.owner? x = some .free) : ¬ c.Above x y := by
  simp [Above, parent?_eq, h, Owner.host?]

theorem within_self (c : Canvas) (x : BlockId) : c.Within x x :=
  .refl

theorem eq_of_within_free (hx : c.owner? x = some .free) (h : c.Within x y) : y = x := by
  rcases Relation.ReflTransGen.cases_head h with rfl | ⟨z, hz, -⟩
  · rfl
  · exact absurd hz (not_above_of_free hx)

theorem within_of_above_of_ne {a : BlockId} (h : c.Within x a) (hne : x ≠ a) (hy : c.Above x y) :
    c.Within y a := by
  rcases Relation.ReflTransGen.cases_head h with rfl | ⟨z, hz, hza⟩
  · exact absurd rfl hne
  · rwa [above_unique hy hz]

theorem Grounded.acyclic (h : c.Grounded x) : ¬ Relation.TransGen c.Above x x := by
  induction h with
  | free hf =>
    intro hc
    obtain ⟨y, hy, -⟩ := Relation.TransGen.head'_iff.1 hc
    exact not_above_of_free hf hy
  | owned ho hh _ ih =>
    intro hc
    obtain ⟨y, hy, hyx⟩ := Relation.TransGen.head'_iff.1 hc
    have hstep := above_of_owner? ho hh
    obtain rfl := above_unique hstep hy
    exact ih (Relation.TransGen.tail' hyx hstep)

theorem Grounded.mono
    (howner : ∀ y, c'.owner? y = c.owner? y ∨ c'.owner? y = some .free) (h : c.Grounded x) :
    c'.Grounded x := by
  induction h with
  | @free x hf =>
    rcases howner x with ho | ho
    · exact .free (ho.trans hf)
    · exact .free ho
  | @owned x host o ho hh _ ih =>
    rcases howner x with he | he
    · exact .owned (he.trans ho) hh ih
    · exact .free he

theorem Within.mono
    (howner : ∀ y, c'.owner? y = c.owner? y ∨ c'.owner? y = some .free) (h : c'.Within x y) :
    c.Within x y := by
  refine Relation.ReflTransGen.mono (fun a b hab => ?_) _ _ h
  rcases howner a with ho | ho
  · rw [Above, parent?_eq] at hab ⊢
    rwa [← ho]
  · exact absurd hab (not_above_of_free ho)

/-- Putting a block below one that is not within it leaves every way up grounded. -/
theorem Grounded.relink {o : Owner} {host : BlockId}
    (howner : ∀ y, c'.owner? y = if y = id then some o else c.owner? y)
    (hhost : o.host? = some host) (hg : c.Grounded host) (hout : ¬ c.Within host id)
    (h : c.Grounded x) : c'.Grounded x := by
  have apart : c'.Grounded host := by
    clear h hhost
    induction hg with
    | @free y hf =>
      have hne : y ≠ id := fun he => hout (he ▸ within_self c y)
      exact .free (by rw [howner, if_neg hne, hf])
    | @owned y z o' ho hh _ ih =>
      have hne : y ≠ id := fun he => hout (he ▸ within_self c y)
      refine .owned (by rw [howner, if_neg hne, ho]) hh (ih fun hz => hout ?_)
      exact hz.head (above_of_owner? ho hh)
  have self : c'.Grounded id := .owned (by simp [howner]) hhost apart
  induction h with
  | @free y hf =>
    by_cases he : y = id
    · exact he ▸ self
    · exact .free (by rw [howner, if_neg he, hf])
  | @owned y z o' ho hh _ ih =>
    by_cases he : y = id
    · exact he ▸ self
    · exact .owned (by rw [howner, if_neg he, ho]) hh ih

/-! ### Consequences of being linked -/

namespace Linked

theorem block?_iff (h : c.Linked loose) {b : Block} :
    c.block? x = some b ↔ b ∈ c.blocks ∧ b.id = x := by
  constructor
  · exact fun hb => ⟨mem_of_block? hb, id_of_block? hb⟩
  · rintro ⟨hb, rfl⟩
    exact block?_of_mem h.ascending hb

theorem grounded_of_block? (h : c.Linked loose) {b : Block} (hb : c.block? x = some b) :
    c.Grounded x :=
  id_of_block? hb ▸ h.grounded b (mem_of_block? hb)

theorem mem_listed_of_owner? (h : c.Linked none) {o : Owner} (hx : c.owner? x = some o) :
    x ∈ c.listed o :=
  (h.link o x).2 ⟨hx, by simp⟩

theorem owner?_of_mem_listed (h : c.Linked loose) {o : Owner} (hx : x ∈ c.listed o) :
    c.owner? x = some o :=
  ((h.link o x).1 hx).1

theorem exists_of_above (h : c.Linked none) (hx : c.Above x y) :
    ∃ b, c.block? y = some b ∧ x ∈ b.owned := by
  obtain ⟨o, ho, hy⟩ := exists_owner_of_above hx
  exact exists_host_of_mem_listed (h.mem_listed_of_owner? ho) hy

theorem above_of_mem_owned (h : c.Linked loose) {b : Block} (hb : c.block? y = some b)
    (hx : x ∈ b.owned) : c.Above x y := by
  obtain ⟨o, ho, hm⟩ := exists_listed_of_mem_owned hb hx
  exact above_of_owner? (h.owner?_of_mem_listed hm) ho

theorem exists_block_of_owner? {o : Owner} (hx : c.owner? x = some o) :
    ∃ b, c.block? x = some b ∧ b.owner = o :=
  Option.map_eq_some_iff.1 hx

theorem exists_block_of_mem_owned (h : c.Linked loose) {b : Block} (hb : c.block? y = some b)
    (hx : x ∈ b.owned) : ∃ k, c.block? x = some k := by
  obtain ⟨o, -, hm⟩ := exists_listed_of_mem_owned hb hx
  obtain ⟨k, hk, -⟩ := exists_block_of_owner? (h.owner?_of_mem_listed hm)
  exact ⟨k, hk⟩

theorem not_cyclic (h : c.Linked none) (x : BlockId) : ¬ Relation.TransGen c.Above x x := by
  intro hc
  obtain ⟨y, hy, -⟩ := Relation.TransGen.head'_iff.1 hc
  obtain ⟨o, ho, -⟩ := exists_owner_of_above hy
  obtain ⟨b, hb, -⟩ := exists_block_of_owner? ho
  exact (h.grounded_of_block? hb).acyclic hc

theorem length_ids (c : Canvas) : (c.blocks.map Block.id).length = c.size := by
  simp [size]

end Linked

theorem exists_block_of_within {b : Block} (hb : c.block? y = some b) (hw : c.Within x y) :
    ∃ a, c.block? x = some a := by
  rcases Relation.ReflTransGen.cases_head hw with rfl | ⟨z, hz, -⟩
  · exact ⟨b, hb⟩
  · obtain ⟨o, ho, -⟩ := exists_owner_of_above hz
    obtain ⟨a, ha, -⟩ := Linked.exists_block_of_owner? ho
    exact ⟨a, ha⟩

theorem Grounded.exists_root (h : c.Grounded x) :
    ∃ root, c.owner? root = some .free ∧ c.Within x root := by
  induction h with
  | @free x hf => exact ⟨x, hf, within_self c x⟩
  | owned ho hh _ ih =>
    obtain ⟨root, hf, hw⟩ := ih
    exact ⟨root, hf, hw.head (above_of_owner? ho hh)⟩

/-! ### The bounded way up -/

theorem climb_succ (c : Canvas) (n : Nat) (x : BlockId) :
    c.climb (n + 1) x = x :: (c.parent? x).elim [] (c.climb n) := by
  unfold climb
  cases c.parent? x <;> rfl

theorem within_of_mem_climb {n : Nat} {a : BlockId} (h : a ∈ c.climb n x) : c.Within x a := by
  induction n generalizing x with
  | zero => simp [climb] at h
  | succ n ih =>
    rw [climb_succ] at h
    rcases List.mem_cons.1 h with rfl | hm
    · exact within_self c a
    · cases hp : c.parent? x with
      | none => simp [hp] at hm
      | some y => exact (ih (by simpa [hp] using hm)).head hp

theorem climb_nodup (hg : c.Grounded x) (n : Nat) : (c.climb n x).Nodup := by
  induction hg generalizing n with
  | @free x hf =>
    cases n with
    | zero => simp [climb]
    | succ n => simp [climb_succ, parent?_eq, hf, Owner.host?]
  | @owned x y o ho hh hy ih =>
    cases n with
    | zero => simp [climb]
    | succ n =>
      have hxy := above_of_owner? ho hh
      have hp : c.parent? x = some y := hxy
      rw [climb_succ, hp, Option.elim_some, List.nodup_cons]
      refine ⟨fun hm => ?_, ih n⟩
      exact (Grounded.owned ho hh hy).acyclic (Relation.TransGen.head' hxy (within_of_mem_climb hm))

theorem climb_subset (h : c.Linked none) (hx : (c.block? x).isSome) (n : Nat) :
    c.climb n x ⊆ c.blocks.map Block.id := by
  induction n generalizing x with
  | zero => simp [climb]
  | succ n ih =>
    rw [climb_succ]
    obtain ⟨b, hb⟩ := Option.isSome_iff_exists.1 hx
    refine List.cons_subset.2 ⟨List.mem_map.2 ⟨b, mem_of_block? hb, id_of_block? hb⟩, ?_⟩
    cases hp : c.parent? x with
    | none => simp
    | some y =>
      obtain ⟨a, ha, -⟩ := h.exists_of_above (y := y) hp
      exact ih (by simp [ha])

theorem length_climb_le (h : c.Linked none) (hx : (c.block? x).isSome) (n : Nat) :
    (c.climb n x).length ≤ c.size := by
  obtain ⟨b, hb⟩ := Option.isSome_iff_exists.1 hx
  have hn := climb_nodup (h.grounded_of_block? hb) n
  rw [← Linked.length_ids]
  exact (List.subperm_of_subset hn (climb_subset h hx n)).length_le

theorem climb_succ_of_length_lt {n : Nat} (h : (c.climb n x).length < n) :
    c.climb (n + 1) x = c.climb n x := by
  induction n generalizing x with
  | zero => simp at h
  | succ n ih =>
    rw [climb_succ c (n + 1), climb_succ c n]
    rw [climb_succ] at h
    cases hp : c.parent? x with
    | none => rfl
    | some y =>
      simp only [hp, Option.elim_some, List.length_cons] at h
      simp only [Option.elim_some]
      rw [ih (by omega)]

theorem ancestry_eq (h : c.Linked none) (x : BlockId) :
    c.ancestry x = x :: (c.parent? x).elim [] c.ancestry := by
  have hstable : c.climb (c.size + 2) x = c.climb (c.size + 1) x := by
    by_cases hx : (c.block? x).isSome
    · exact climb_succ_of_length_lt (by have := length_climb_le h hx (c.size + 1); omega)
    · have hp : c.parent? x = none := by
        rw [parent?_eq, owner?, Option.not_isSome_iff_eq_none.1 hx]
        rfl
      simp [climb_succ, hp]
  rw [ancestry, ← hstable, climb_succ]
  rfl

theorem mem_ancestry_iff (h : c.Linked none) : y ∈ c.ancestry x ↔ c.Within x y := by
  constructor
  · exact within_of_mem_climb
  · intro hw
    induction hw using Relation.ReflTransGen.head_induction_on with
    | refl =>
      rw [ancestry_eq h]
      exact List.mem_cons_self
    | head hstep _ ih =>
      have hp := hstep
      rw [Above] at hp
      rw [ancestry_eq h, hp]
      exact List.mem_cons_of_mem _ ih

theorem isWithin_iff (h : c.Linked none) : c.isWithin x y = true ↔ c.Within x y := by
  rw [isWithin, List.contains_iff_mem, mem_ancestry_iff h]

theorem length_ancestry_le (h : c.Linked none) (hx : (c.block? x).isSome) :
    (c.ancestry x).length ≤ c.size :=
  length_climb_le h hx _

theorem length_ancestry_of_above (h : c.Linked none) (hx : c.Above x y) :
    (c.ancestry x).length = (c.ancestry y).length + 1 := by
  have hp : c.parent? x = some y := hx
  rw [ancestry_eq h, hp]
  rfl

theorem length_ancestry_pos (h : c.Linked none) (x : BlockId) : 0 < (c.ancestry x).length := by
  rw [ancestry_eq h]
  exact Nat.succ_pos _

theorem induction_down (h : c.Linked none) {P : BlockId → Prop}
    (step : ∀ x b, c.block? x = some b → (∀ k ∈ b.owned, P k) → P x) :
    ∀ x b, c.block? x = some b → P x := by
  -- the room left above the store's bound shrinks with every step down
  suffices hroom : ∀ n x b, c.block? x = some b → c.size < n + (c.ancestry x).length → P x from
    fun x b hb => hroom (c.size + 1) x b hb (by omega)
  intro n
  induction n with
  | zero =>
    intro x b hb hlt
    have := length_ancestry_le h (x := x) (by simp [hb])
    omega
  | succ n ih =>
    intro x b hb hlt
    refine step x b hb fun k hk => ?_
    obtain ⟨kb, hkb⟩ := h.exists_block_of_mem_owned hb hk
    refine ih k kb hkb ?_
    rw [length_ancestry_of_above h (h.above_of_mem_owned hb hk)]
    omega

end Canvas
end BlockCanvas
