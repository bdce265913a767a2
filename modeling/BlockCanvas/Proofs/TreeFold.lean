import BlockCanvas.Proofs.Forest

/-!
Folds over trees. A fold sees a block once all below it are done: its slots hold the results of the
blocks in them.
-/
namespace BlockCanvas

variable {α β γ : Type}

namespace Entry

def map (f : β → γ) : Entry β → Entry γ
  | .block b => .block (f b)
  | .line text => .line text

end Entry

namespace Content

def map (f : β → γ) : Content β → Content γ
  | .value child literal => .value (child.map f) literal
  | .body entries => .body (entries.map (Entry.map f))

theorem children_map (f : β → γ) (content : Content β) :
    (content.map f).children = content.children.map f := by
  cases content with
  | value child literal => cases child <;> rfl
  | body entries =>
    simp only [map, children, List.filterMap_map, List.map_filterMap]
    refine List.filterMap_congr fun e _ => ?_
    cases e <;> rfl

theorem shape_map (f : β → γ) (content : Content β) : (content.map f).shape = content.shape := by
  cases content <;> rfl

end Content

namespace Slot

def map (f : β → γ) (s : Slot β) : Slot γ :=
  ⟨s.name, s.content.map f⟩

@[simp]
theorem children_map (f : β → γ) (s : Slot β) : (s.map f).children = s.children.map f :=
  Content.children_map f s.content

@[simp]
theorem shape_map (f : β → γ) (s : Slot β) : (s.map f).shape = s.shape :=
  Content.shape_map f s.content

theorem signature_map (f : β → γ) (s : Slot β) : (s.map f).signature = s.signature :=
  congrArg (Prod.mk s.name) (shape_map f s)

theorem map_eq_filterMap (f : β → γ) (s : Slot β) : s.map f = s.filterMap fun b => some (f b) := by
  obtain ⟨name, child | entries⟩ := s
  · cases child <;> rfl
  · have hentries : Entry.filterMap (fun b => some (f b)) = fun e => some (e.map f) := by
      funext e
      cases e <;> rfl
    simp [map, Content.map, filterMap, Content.filterMap, hentries]

theorem map_map (f : α → β) (g : β → γ) (s : Slot α) : (s.map f).map g = s.map fun a => g (f a) := by
  simp only [map_eq_filterMap, filterMap_filterMap, Option.bind_some]

theorem map_congr {f g : β → γ} {s : Slot β} (h : ∀ k ∈ s.children, f k = g k) : s.map f = s.map g := by
  rw [map_eq_filterMap, map_eq_filterMap]
  exact filterMap_congr fun k hk => congrArg some (h k hk)

end Slot

namespace Tree

mutual
def fold (f : BlockId → Face → List (Slot α) → List α → α) : Tree → α
  | .node id face slots chain => f id face (foldSlots f slots) (foldChain f chain)
def foldSlots (f : BlockId → Face → List (Slot α) → List α → α) : List (Slot Tree) → List (Slot α)
  | [] => []
  | ⟨name, .value none literal⟩ :: slots => ⟨name, .value none literal⟩ :: foldSlots f slots
  | ⟨name, .value (some t) literal⟩ :: slots =>
    ⟨name, .value (some (fold f t)) literal⟩ :: foldSlots f slots
  | ⟨name, .body entries⟩ :: slots => ⟨name, .body (foldBody f entries)⟩ :: foldSlots f slots
def foldBody (f : BlockId → Face → List (Slot α) → List α → α) : List (Entry Tree) → List (Entry α)
  | [] => []
  | .block t :: entries => .block (fold f t) :: foldBody f entries
  | .line text :: entries => .line text :: foldBody f entries
def foldChain (f : BlockId → Face → List (Slot α) → List α → α) : List Tree → List α
  | [] => []
  | t :: ts => fold f t :: foldChain f ts
end

theorem fold_node (f : BlockId → Face → List (Slot α) → List α → α) (id : BlockId) (face : Face)
    (slots : List (Slot Tree)) (chain : List Tree) :
    fold f (.node id face slots chain) =
      f id face (slots.map (Slot.map (fold f))) (chain.map (fold f)) := by
  have hbody : ∀ entries, foldBody f entries = entries.map (Entry.map (fold f)) := by
    intro entries
    induction entries with
    | nil => rfl
    | cons e entries ih => cases e <;> simp [foldBody, ih, Entry.map]
  have hslots : ∀ slots, foldSlots f slots = slots.map (Slot.map (fold f)) := by
    intro slots
    induction slots with
    | nil => rfl
    | cons s slots ih =>
      obtain ⟨name, content⟩ := s
      cases content with
      | value child literal => cases child <;> simp [foldSlots, ih, Slot.map, Content.map]
      | body entries => simp [foldSlots, ih, hbody, Slot.map, Content.map]
  have hchain : ∀ chain, foldChain f chain = chain.map (fold f) := by
    intro chain
    induction chain with
    | nil => rfl
    | cons t ts ih => simp [foldChain, ih]
  rw [fold, hslots, hchain]

theorem map_fold {f : BlockId → Face → List (Slot α) → List α → α}
    {f' : BlockId → Face → List (Slot β) → List β → β} {g : α → β}
    (h : ∀ id face slots chain,
      g (f id face slots chain) = f' id face (slots.map (Slot.map g)) (chain.map g)) (t : Tree) :
    g (fold f t) = fold f' t := by
  induction t using Tree.induction with
  | step t ih =>
    obtain ⟨id, face, slots, chain⟩ := t
    have hslots : ∀ s ∈ slots, (Slot.map g ∘ Slot.map (fold f)) s = s.map (fold f') := by
      intro s hs
      rw [Function.comp_apply, Slot.map_map]
      exact Slot.map_congr fun k hk => ih k (List.mem_append_left _ (List.mem_flatMap.2 ⟨s, hs, hk⟩))
    have hchain : ∀ k ∈ chain, (g ∘ fold f) k = fold f' k := fun k hk => ih k (List.mem_append_right _ hk)
    rw [fold_node, fold_node, h, List.map_map, List.map_map, List.map_congr_left hslots,
      List.map_congr_left hchain]

end Tree
end BlockCanvas
