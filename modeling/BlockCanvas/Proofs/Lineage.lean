import BlockCanvas.Proofs.Reachable
import Mathlib.Data.List.Basic

/-!
The way up and the way down agree. What is found by following owners from a block is what the walk below
a block meets, a subtree is a stretch of the walk over all blocks, and a search upwards that knows no
bound ends at a free block before it has made as many steps as there are blocks.
-/
namespace BlockCanvas.Canvas
variable {c : Canvas} {id x y : BlockId}

/-! ### The search upwards without a bound -/

/-- Looking for a block among the owners of another one, which stops only where it finds it or where nothing
is above, comes to an answer after so many steps up. -/
inductive Seeks (c : Canvas) (ancestor : BlockId) : Nat → BlockId → Bool → Prop
  | found : Seeks c ancestor 0 ancestor true
  | missed {x : BlockId} : x ≠ ancestor → c.parent? x = none → Seeks c ancestor 0 x false
  | higher {n : Nat} {x y : BlockId} {answer : Bool} : x ≠ ancestor → c.parent? x = some y →
      Seeks c ancestor n y answer → Seeks c ancestor (n + 1) x answer

inductive Rises (c : Canvas) : Nat → BlockId → Point Float → Prop
  | top {x : BlockId} : c.parent? x = none → Rises c 0 x (c.standing x)
  | higher {n : Nat} {x y : BlockId} {p : Point Float} : c.parent? x = some y → Rises c n y p →
      Rises c (n + 1) x p

def up? (c : Canvas) : Nat → BlockId → Option BlockId
  | 0, id => some id
  | n + 1, id => (c.parent? id).bind (c.up? n)

theorem induction_up (h : c.Linked none) {P : BlockId → Prop}
    (step : ∀ x, (∀ y, c.parent? x = some y → P y) → P x) (x : BlockId) : P x := by
  induction hn : (c.ancestry x).length generalizing x with
  | zero => exact absurd hn (Nat.ne_of_gt (length_ancestry_pos h x))
  | succ n ih =>
    refine step x fun y hp => ih y ?_
    rw [length_ancestry_of_above h hp] at hn
    omega

theorem isWithin_self (h : c.Linked none) (x : BlockId) : c.isWithin x x = true :=
  (isWithin_iff h).2 (within_self c x)

theorem isWithin_of_ne (h : c.Linked none) {a : BlockId} (hne : x ≠ a) :
    c.isWithin x a = (c.parent? x).any (c.isWithin · a) := by
  rw [isWithin, ancestry_eq h, List.contains_cons, beq_eq_false_iff_ne.2 hne.symm, Bool.false_or]
  cases c.parent? x <;> rfl

theorem anchor_eq (h : c.Linked none) (x : BlockId) :
    c.anchor x = (c.parent? x).elim (c.standing x) c.anchor := by
  rw [anchor, ancestry_eq h]
  cases hp : c.parent? x with
  | none => cases hb : c.block? x <;> simp [standing, hb]
  | some y =>
    have hne : c.ancestry y ≠ [] := List.length_pos_iff.1 (length_ancestry_pos h y)
    simp only [Option.elim_some, anchor]
    rw [List.getLast?_cons, List.getLast?_eq_some_getLast hne, Option.getD_some]

theorem seeks_iff (h : c.Linked none) {a x : BlockId} {answer : Bool} :
    (∃ n, c.Seeks a n x answer) ↔ answer = c.isWithin x a := by
  constructor
  · rintro ⟨n, hs⟩
    induction hs with
    | found => exact (isWithin_self h a).symm
    | missed hne hp => rw [isWithin_of_ne h hne, hp, Option.any_none]
    | higher hne hp _ ih => rw [isWithin_of_ne h hne, hp, ih, Option.any_some]
  · rintro rfl
    induction x using induction_up h with
    | step x ih =>
      by_cases hx : x = a
      · subst hx
        rw [isWithin_self h]
        exact ⟨0, .found⟩
      · rw [isWithin_of_ne h hx]
        cases hp : c.parent? x with
        | none => exact ⟨0, .missed hx hp⟩
        | some y =>
          obtain ⟨n, hs⟩ := ih y hp
          exact ⟨n + 1, .higher hx hp hs⟩

theorem rises_iff (h : c.Linked none) {x : BlockId} {p : Point Float} :
    (∃ n, c.Rises n x p) ↔ p = c.anchor x := by
  constructor
  · rintro ⟨n, hr⟩
    induction hr with
    | top hp => rw [anchor_eq h, hp, Option.elim_none]
    | higher hp _ ih => rw [anchor_eq h, hp, ih, Option.elim_some]
  · rintro rfl
    induction x using induction_up h with
    | step x ih =>
      rw [anchor_eq h]
      cases hp : c.parent? x with
      | none => exact ⟨0, .top hp⟩
      | some y =>
        obtain ⟨n, hr⟩ := ih y hp
        exact ⟨n + 1, .higher hp hr⟩

theorem Seeks.exists_up? {a x : BlockId} {n : Nat} {answer : Bool} (hs : c.Seeks a n x answer) :
    ∃ y, c.up? n x = some y := by
  induction hs with
  | found => exact ⟨_, rfl⟩
  | missed => exact ⟨_, rfl⟩
  | higher _ hp _ ih => rwa [up?, hp, Option.bind_some]

theorem Rises.exists_up? {x : BlockId} {n : Nat} {p : Point Float} (hr : c.Rises n x p) :
    ∃ y, c.up? n x = some y := by
  induction hr with
  | top => exact ⟨_, rfl⟩
  | higher hp _ ih => rwa [up?, hp, Option.bind_some]

theorem getElem?_ancestry (h : c.Linked none) (n : Nat) (x : BlockId) :
    (c.ancestry x)[n]? = c.up? n x := by
  induction n generalizing x with
  | zero =>
    rw [ancestry_eq h]
    rfl
  | succ n ih =>
    rw [ancestry_eq h, List.getElem?_cons_succ, up?]
    cases c.parent? x with
    | none => rfl
    | some y => exact ih y

theorem lt_size_of_up? (h : c.Linked none) {b : Block} (hb : c.block? x = some b) {n : Nat}
    (hup : ∃ y, c.up? n x = some y) : n < c.size := by
  obtain ⟨y, hy⟩ := hup
  rw [← getElem?_ancestry h] at hy
  obtain ⟨hn, -⟩ := List.getElem?_eq_some_iff.1 hy
  exact Nat.lt_of_lt_of_le hn (length_ancestry_le h (by simp [hb]))

theorem exists_up?_eq (h : c.Linked none) {b : Block} (hb : c.block? x = some b) :
    ∃ n < c.size, ∃ r ∈ c.roots, c.up? n x = some r := by
  obtain ⟨r, hfree, hw⟩ := (h.grounded_of_block? hb).exists_root
  obtain ⟨n, hn, hr⟩ := List.mem_iff_getElem.1 ((mem_ancestry_iff h).2 hw)
  have hup : c.up? n x = some r := by rw [← getElem?_ancestry h, List.getElem?_eq_getElem hn, hr]
  exact ⟨n, lt_size_of_up? h hb ⟨r, hup⟩, r, h.mem_listed_of_owner? (o := .free) hfree, hup⟩

theorem anchor_of_within (h : c.Linked none) {r : BlockId} (hr : r ∈ c.roots) (hw : c.Within x r) :
    c.anchor x = c.standing r := by
  have htop : c.parent? r = none := by
    rw [parent?_eq, h.owner?_of_mem_listed (o := .free) hr]
    rfl
  induction hw using Relation.ReflTransGen.head_induction_on with
  | refl => rw [anchor_eq h, htop, Option.elim_none]
  | @head x y hxy _ ih =>
    have hp : c.parent? x = some y := hxy
    rw [anchor_eq h, hp, Option.elim_some, ih]

/-! ### Stretches of the walk -/

theorem infix_subtree (h : c.Linked none) {b : Block} (hy : c.block? y = some b) (hw : c.Within x y) :
    c.subtree x <:+: c.subtree y := by
  induction hw generalizing b with
  | refl => exact List.infix_refl _
  | @tail k y _ hky ih =>
    obtain ⟨b', hb', hk⟩ := h.exists_of_above hky
    obtain ⟨kb, hkb⟩ := h.exists_block_of_mem_owned hb' hk
    rw [subtree_of_block? h hb']
    refine (ih hkb).trans (List.IsInfix.trans (List.infix_flatMap_of_mem hk c.subtree) ?_)
    exact (List.suffix_cons y _).isInfix

theorem infix_traverse (h : c.Linked none) {b : Block} (hb : c.block? x = some b) :
    c.subtree x <:+: c.traverse := by
  obtain ⟨r, hfree, hw⟩ := (h.grounded_of_block? hb).exists_root
  obtain ⟨a, ha, -⟩ := Linked.exists_block_of_owner? hfree
  have hroot : r ∈ c.roots := h.mem_listed_of_owner? (o := .free) hfree
  exact (infix_subtree h ha hw).trans (List.infix_flatMap_of_mem hroot c.subtree)

/-! ### Both ways -/

structure Aligned (c : Canvas) : Prop where
  once : ∀ b ∈ c.blocks, c.traverse.count b.id = 1
  live : ∀ x ∈ c.traverse, ∃ b ∈ c.blocks, b.id = x
  within : ∀ a ∈ c.blocks, ∀ b ∈ c.blocks, c.isWithin a.id b.id = true ↔ a.id ∈ c.subtree b.id
  stretch : ∀ b ∈ c.blocks, (c.subtree b.id).Nodup ∧ c.subtree b.id <:+: c.traverse
  steps : ∀ b ∈ c.blocks, ∃ n < c.size, ∃ r ∈ c.roots, c.owner? r = some .free ∧ c.up? n b.id = some r
  seek : ∀ x a answer, (∃ n, c.Seeks a n x answer) ↔ answer = c.isWithin x a
  rise : ∀ x p, (∃ n, c.Rises n x p) ↔ p = c.anchor x
  seekSteps : ∀ b ∈ c.blocks, ∀ a n answer, c.Seeks a n b.id answer → n < c.size
  riseSteps : ∀ b ∈ c.blocks, ∀ n p, c.Rises n b.id p → n < c.size
  anchor : ∀ a ∈ c.blocks, ∃ r ∈ c.roots, (∀ r' ∈ c.roots, a.id ∈ c.subtree r' ↔ r' = r) ∧
    (c.block? r).map Block.position = some (c.anchor a.id)

theorem exists_root_subtree (h : c.Linked none) {a : Block} (ha : a ∈ c.blocks) :
    ∃ r ∈ c.roots, ∀ r' ∈ c.roots, a.id ∈ c.subtree r' ↔ r' = r := by
  obtain ⟨r, hfree, hw⟩ := (h.grounded a ha).exists_root
  have hroot : r ∈ c.roots := h.mem_listed_of_owner? (o := .free) hfree
  refine ⟨r, hroot, fun r' hr' => ?_⟩
  have hfree' := h.owner?_of_mem_listed (o := .free) hr'
  obtain ⟨b, hb, -⟩ := Linked.exists_block_of_owner? hfree'
  rw [mem_subtree_iff h hb]
  refine ⟨fun hw' => ?_, fun he => he ▸ hw⟩
  -- of two free blocks above one block neither is above the other
  rcases within_total hw hw' with hrr | hrr
  · exact eq_of_within_free hfree hrr
  · exact (eq_of_within_free hfree' hrr).symm

theorem aligned_of_linked (h : c.Linked none) : c.Aligned where
  once b hb := List.count_eq_one_of_mem (nodup_traverse h) ((mem_traverse_iff h).2 ⟨b, hb, rfl⟩)
  live x hx := (mem_traverse_iff h).1 hx
  within _ _ _ hb := isWithin_iff_mem_subtree h (block?_of_mem h.ascending hb)
  stretch b hb :=
    have hid := block?_of_mem h.ascending hb
    ⟨nodup_subtree h hid, infix_traverse h hid⟩
  steps b hb := by
    obtain ⟨n, hn, r, hr, hup⟩ := exists_up?_eq h (block?_of_mem h.ascending hb)
    exact ⟨n, hn, r, hr, h.owner?_of_mem_listed (o := .free) hr, hup⟩
  seek _ _ _ := seeks_iff h
  rise _ _ := rises_iff h
  seekSteps _ hb _ _ _ hs := lt_size_of_up? h (block?_of_mem h.ascending hb) hs.exists_up?
  riseSteps _ hb _ _ hr := lt_size_of_up? h (block?_of_mem h.ascending hb) hr.exists_up?
  anchor a ha := by
    obtain ⟨r, hr, honly⟩ := exists_root_subtree h ha
    obtain ⟨b, -, hb, -⟩ := exists_root? h hr
    have hw := (mem_subtree_iff h hb).1 ((honly r hr).2 rfl)
    refine ⟨r, hr, honly, ?_⟩
    rw [anchor_of_within h hr hw, standing, hb]
    rfl

/-- On every canvas that edits lead to, the way up and the way down agree. -/
theorem Reachable.aligned (h : c.Reachable) : c.Aligned :=
  aligned_of_linked h.sound.toLinked

theorem aligned_branching :
    let c := Edit.run empty
      [.instantiate .print .origin, .instantiate .whileLoop ⟨7, 9⟩, .instantiateInto .ifBranch ⟨2, 1⟩,
        .instantiate .elifBranch .origin, .attachConnector 4 3, .instantiateInto .operation ⟨4, 0⟩]
    c.traverse = [1, 2, 3, 4, 5] ∧ c.subtree 4 = [4, 5] ∧ c.up? 3 5 = some 2 ∧ c.size = 5 ∧
      c.isWithin 5 3 = true ∧ c.isWithin 3 5 = false ∧ c.Reachable ∧ c.Aligned := by
  intro c
  have hc : c.Reachable := Reachable.run (.start _) _
  exact ⟨by decide, by decide, by decide, by decide, by decide, by decide, hc, Reachable.aligned hc⟩

end BlockCanvas.Canvas
