import BlockCanvas.Proofs.JsonCodec
import BlockCanvas.Proofs.ProgramRecast

/-!
The JSON that a canvas is saved as. It can be written (`Canvas.legible_toJson`), what is read of its text is
the JSON of the same trees at other positions (`Canvas.reread_toJson`), and how many of its containers are
open at once is a matter of how deep blocks are placed in each other (`Tree.depth_toJson_le`).
-/
namespace BlockCanvas

/-! ### Numbers as their text is read -/

def Json.settled (f : Float → Float) (x : Float) : Float :=
  if Writes x then f x else x

def Point.returned (f : Float → Float) (p : Point Float) : Point Float :=
  ⟨Json.settled f p.x, Json.settled f p.y⟩

def Rect.returned (f : Float → Float) (r : Rect Float) : Rect Float :=
  ⟨Json.settled f r.x, Json.settled f r.y, Json.settled f r.width, Json.settled f r.height⟩

variable {f : Float → Float}

theorem Rect.Writable.returned (hf : ∀ {x}, Json.Writes x → Json.Writes (f x)) {r : Rect Float}
    (h : r.Writable) : (r.returned f).Writable := by
  have hsettled : ∀ {x}, Json.Writes x → Json.Writes (Json.settled f x) := fun hx => by
    rw [Json.settled, if_pos hx]
    exact hf hx
  exact ⟨hsettled h.1, hsettled h.2.1, hsettled h.2.2.1, hsettled h.2.2.2⟩

namespace Json
variable {key : String} {value : Json} {members : List (String × Json)} {n : ℕ}

theorem ofFloat_cases (x : Float) : Writes x ∧ ofFloat x = .real x ∨ ¬Writes x ∧ ofFloat x = .null := by
  rw [ofFloat]
  cases hx : Binary.ofFloat x <;> simp [Writes, hx, Binary.isFinite]

theorem legible_ofFloat (x : Float) : (ofFloat x).Legible := by
  rcases ofFloat_cases x with ⟨hx, he⟩ | ⟨-, he⟩ <;> rw [he]
  · exact .real hx
  · exact .null

theorem depth_ofFloat (x : Float) : (ofFloat x).depth = 0 := by
  rcases ofFloat_cases x with ⟨-, he⟩ | ⟨-, he⟩ <;> rw [he] <;> rfl

theorem reread_ofFloat (hf : ∀ {x}, Writes x → Writes (f x)) (x : Float) :
    (ofFloat x).reread f = ofFloat (settled f x) := by
  rcases ofFloat_cases x with ⟨hx, he⟩ | ⟨hx, he⟩
  · have hreturned := (ofFloat_cases (f x)).resolve_right fun h => h.1 (hf hx)
    rw [settled, if_pos hx, he, hreturned.2]
    rfl
  · rw [settled, if_neg hx, he]
    rfl

/-! ### Members in their order -/

theorem exists_ofMembers (members : List (String × Json)) :
    ∃ sorted, ofMembers members = .object sorted ∧ Ascending sorted ∧ ∀ m ∈ sorted, m ∈ members := by
  have hsorted : Ascending (members.foldl (fun sorted m => insertMember m.1 m.2 sorted) []) ∧
      ∀ m ∈ members.foldl (fun sorted m => insertMember m.1 m.2 sorted) [], m ∈ members := by
    refine List.foldlRecOn (motive := fun sorted => Ascending sorted ∧ ∀ m ∈ sorted, m ∈ members) members _
      ⟨.nil, List.forall_mem_nil _⟩ ?_
    rintro sorted ⟨hasc, hall⟩ m hm
    refine ⟨ascending_insertMember hasc, fun m' hm' => ?_⟩
    rcases mem_insertMember hm' with rfl | hm'
    · exact hm
    · exact hall m' hm'
  exact ⟨_, rfl, hsorted⟩

theorem legible_ofMembers (h : ∀ m ∈ members, m.2.Legible) : (ofMembers members).Legible := by
  obtain ⟨sorted, he, hasc, hmem⟩ := exists_ofMembers members
  rw [he]
  exact .object hasc fun m hm => h m (hmem m hm)

theorem depth_ofMembers_le (h : ∀ m ∈ members, m.2.depth ≤ n) : (ofMembers members).depth ≤ n + 1 := by
  obtain ⟨sorted, he, -, hmem⟩ := exists_ofMembers members
  rw [he]
  exact Nat.succ_le_succ (membersDepth_le_iff.2 fun m hm => h m (hmem m hm))

theorem map_insertMember (f : Json → Json) :
    (insertMember key value members).map (fun m => (m.1, f m.2)) =
      insertMember key (f value) (members.map fun m => (m.1, f m.2)) := by
  induction members with
  | nil => rfl
  | cons m members ih =>
    rw [insertMember]
    split_ifs with hlt heq
    · simp [insertMember, hlt]
    · simp [insertMember, hlt, heq]
    · simp [insertMember, hlt, heq, ih]

theorem reread_ofMembers :
    (ofMembers members).reread f = ofMembers (members.map fun m => (m.1, m.2.reread f)) := by
  rw [ofMembers, reread, rereadMembers_eq, ofMembers]
  congr 1
  induction members using List.reverseRecOn with
  | nil => rfl
  | append_singleton members m ih =>
    rw [List.map_append, List.foldl_append, List.foldl_append, ← ih]
    exact map_insertMember (reread f)

section Congr
variable {β : Type} {ks : List β}

theorem itemsDepth_congr {f g : β → Json} (h : ∀ k ∈ ks, (f k).depth = (g k).depth) :
    itemsDepth (ks.map f) = itemsDepth (ks.map g) := by
  refine eq_of_forall_ge_iff fun n => ?_
  simp only [itemsDepth_le_iff, List.forall_mem_map]
  exact forall₂_congr fun k hk => by rw [h k hk]

theorem membersDepth_congr {f g : β → String × Json} (h : ∀ k ∈ ks, (f k).2.depth = (g k).2.depth) :
    membersDepth (ks.map f) = membersDepth (ks.map g) := by
  refine eq_of_forall_ge_iff fun n => ?_
  simp only [membersDepth_le_iff, List.forall_mem_map]
  exact forall₂_congr fun k hk => by rw [h k hk]

end Congr

end Json

open Json

/-! ### Slots -/

namespace Content
variable {content : Content Json} {n : ℕ}

theorem legible_toJson (h : ∀ v ∈ content.children, v.Legible) : content.toJson.Legible := by
  cases content with
  | value child literal =>
    cases child with
    | none => exact .string literal
    | some v =>
      refine .object (List.pairwise_pair.2 (show "block" < "literal" by decide +kernel)) ?_
      exact List.forall_mem_cons.2
        ⟨h v (List.mem_singleton_self v), List.forall_mem_singleton.2 (.string literal)⟩
  | body entries =>
    refine .array (List.forall_mem_map.2 fun e he => ?_)
    cases e with
    | block v => exact h v (List.mem_filterMap.2 ⟨_, he, rfl⟩)
    | line text => exact .string text

theorem depth_toJson_le (h : ∀ v ∈ content.children, v.depth ≤ n) : content.toJson.depth ≤ n + 1 := by
  cases content with
  | value child literal =>
    cases child with
    | none => exact Nat.zero_le _
    | some v =>
      have hv := h v (List.mem_singleton_self v)
      simp only [toJson, depth, membersDepth]
      omega
  | body entries =>
    refine Nat.succ_le_succ (itemsDepth_le_iff.2 (List.forall_mem_map.2 fun e he => ?_))
    cases e with
    | block v => exact h v (List.mem_filterMap.2 ⟨_, he, rfl⟩)
    | line text => exact Nat.zero_le _

theorem reread_toJson (content : Content Json) : content.toJson.reread f = (content.map (reread f)).toJson := by
  cases content with
  | value child literal => cases child <;> rfl
  | body entries =>
    simp only [toJson, map, reread, rereadItems_eq, List.map_map]
    refine congrArg Json.array (List.map_congr_left fun e _ => ?_)
    cases e <;> rfl

theorem depth_toJson_congr {β : Type} {f g : β → Json} {content : Content β}
    (h : ∀ k ∈ content.children, (f k).depth = (g k).depth) :
    (content.map f).toJson.depth = (content.map g).toJson.depth := by
  cases content with
  | value child literal =>
    cases child with
    | none => rfl
    | some k =>
      have hk := h k (List.mem_singleton_self k)
      simp only [map, Option.map_some, toJson, depth, membersDepth, hk]
  | body entries =>
    simp only [map, toJson, depth, List.map_map]
    refine congrArg (· + 1) (itemsDepth_congr fun e he => ?_)
    cases e with
    | block k => exact h k (List.mem_filterMap.2 ⟨_, he, rfl⟩)
    | line text => rfl

end Content

/-! ### Blocks -/

namespace Tree
variable {face : Face} {position : Option (Point Float)} {chain : List Json} {slots : List (String × Json)}
  {n : ℕ} {t : Tree}

theorem forall_mem_member {P : String × Json → Prop} {key : String} {value : Option Json} :
    (∀ m ∈ member key value, P m) ↔ ∀ v ∈ value, P (key, v) := by
  cases value <;> simp [member]

theorem keys_member (key : String) (value : Option Json) :
    ((member key value).map Prod.fst).Sublist [key] := by
  cases value with
  | none => exact List.nil_sublist _
  | some v => exact List.Sublist.refl _

theorem ascending_blockMembers : Ascending (blockMembers face position chain slots) := by
  have hchain : ((if chain.isEmpty then [] else [("chain", Json.array chain)]).map Prod.fst).Sublist ["chain"] := by
    split
    · exact List.nil_sublist _
    · exact List.Sublist.refl _
  have hkeys : ((blockMembers face position chain slots).map Prod.fst).Sublist
      ["chain", "kind", "literal", "name", "operator", "slots", "x", "y"] := by
    simp only [blockMembers, nameMember_eq, List.map_append]
    exact ((((((hchain.append (.refl _)).append (keys_member _ _)).append (keys_member _ _)).append
      (keys_member _ _)).append (.refl _)).append (keys_member _ _)).append (keys_member _ _)
  exact List.pairwise_map.1 (List.Pairwise.sublist hkeys (by decide +kernel))

theorem forall_mem_blockMembers {P : Json → Prop} (hstring : ∀ s, P (.string s)) (hfloat : ∀ x, P (.ofFloat x)) :
    (∀ m ∈ blockMembers face position chain slots, P m.2) ↔
      (chain ≠ [] → P (.array chain)) ∧ P (.ofMembers slots) := by
  simp only [blockMembers, nameMember_eq, List.forall_mem_append, List.forall_mem_singleton, forall_mem_member]
  cases chain <;> simp [hstring, hfloat]

theorem membersDepth_blockMembers_le_iff :
    membersDepth (blockMembers face position chain slots) ≤ n ↔
      (chain ≠ [] → (Json.array chain).depth ≤ n) ∧ (ofMembers slots).depth ≤ n :=
  membersDepth_le_iff.trans <|
    forall_mem_blockMembers (P := fun v => v.depth ≤ n) (fun _ => Nat.zero_le _) fun x =>
      (depth_ofFloat x).trans_le (Nat.zero_le _)

theorem map_member (f : Json → Json) (key : String) (value : Option Json) :
    (member key value).map (fun m => (m.1, f m.2)) = member key (value.map f) := by
  cases value <;> rfl

theorem reread_blockMembers (hf : ∀ {x}, Writes x → Writes (f x)) :
    (blockMembers face position chain slots).map (fun m => (m.1, m.2.reread f)) =
      blockMembers face (position.map (Point.returned f)) (chain.map (reread f))
        (slots.map fun m => (m.1, m.2.reread f)) := by
  have hname : (if face.name.isEmpty then none else some (Json.string face.name)).map (reread f) =
      if face.name.isEmpty then none else some (.string face.name) := by
    split <;> rfl
  have hposition : ∀ g : Point Float → Float, (∀ p : Point Float, g (p.returned f) = settled f (g p)) →
      (position.map fun p => ofFloat (g p)).map (reread f) =
        (position.map (Point.returned f)).map fun p => ofFloat (g p) := by
    intro g hg
    cases position with
    | none => rfl
    | some p => simp only [Option.map_some, reread_ofFloat hf, hg]
  have hx := hposition Point.x fun _ => rfl
  have hy := hposition Point.y fun _ => rfl
  simp only [blockMembers, nameMember_eq, List.map_append, map_member, hname, hx, hy, Option.map_map]
  cases chain <;> simp [reread, reread_ofMembers, rereadItems_eq, Function.comp_def]

theorem toJson_node (id : BlockId) (face : Face) (slots : List (Slot Tree)) (chain : List Tree) :
    (node id face slots chain).toJson position =
      .object (blockMembers face position (chain.map (toJson none))
        (slots.map fun s => (s.map (toJson none)).toJson)) := by
  rw [toJson, chainToJson_eq, slotsToJson_eq]

theorem legible_toJson (position : Option (Point Float)) (t : Tree) : (t.toJson position).Legible := by
  induction t using Tree.induction generalizing position with
  | step t ih =>
    obtain ⟨id, face, slots, chain⟩ := t
    rw [toJson_node]
    refine .object ascending_blockMembers
      ((forall_mem_blockMembers Legible.string legible_ofFloat).2 ⟨fun _ => ?_, ?_⟩)
    · exact .array (List.forall_mem_map.2 fun k hk => ih k (mem_children.2 (Or.inr hk)) none)
    · refine legible_ofMembers (List.forall_mem_map.2 fun s hs => Content.legible_toJson ?_)
      rw [Slot.map, Content.children_map]
      exact List.forall_mem_map.2 fun k hk => ih k (mem_children.2 (Or.inl ⟨s, hs, hk⟩)) none

theorem reread_toJson (hf : ∀ {x}, Writes x → Writes (f x)) (position : Option (Point Float)) (t : Tree) :
    (t.toJson position).reread f = t.toJson (position.map (Point.returned f)) := by
  induction t using Tree.induction generalizing position with
  | step t ih =>
    obtain ⟨id, face, slots, chain⟩ := t
    have hchain : (chain.map (toJson none)).map (reread f) = chain.map (toJson none) := by
      rw [List.map_map]
      exact List.map_congr_left fun k hk => ih k (mem_children.2 (Or.inr hk)) none
    have hslots : (slots.map fun s => (s.map (toJson none)).toJson).map (fun m => (m.1, m.2.reread f)) =
        slots.map fun s => (s.map (toJson none)).toJson := by
      rw [List.map_map]
      refine List.map_congr_left fun s hs => ?_
      have hsame : (s.map (toJson none)).map (reread f) = s.map (toJson none) := by
        rw [Slot.map_map]
        exact Slot.map_congr fun k hk => ih k (mem_children.2 (Or.inl ⟨s, hs, hk⟩)) none
      refine Prod.ext rfl ((Content.reread_toJson _).trans ?_)
      exact congrArg (fun s : Slot Json => s.content.toJson) hsame
    rw [toJson_node, toJson_node, reread, rereadMembers_eq, reread_blockMembers hf, hchain, hslots]

def height : Tree → ℕ :=
  fold fun _ _ slots chain => (slots.flatMap Slot.children ++ chain).foldr max 0 + 1

theorem height_eq (t : Tree) : t.height = (t.children.map height).foldr max 0 + 1 := by
  obtain ⟨id, face, slots, chain⟩ := t
  rw [height, fold_node]
  simp only [children, Tree.slots, Tree.chain, List.map_append, List.map_flatMap, List.flatMap_map,
    Slot.children_map]

theorem height_lt {k : Tree} (h : k ∈ t.children) : k.height < t.height := by
  have hle : ∀ {ns : List ℕ} {n : ℕ}, n ∈ ns → n ≤ ns.foldr max 0 := by
    intro ns n hn
    induction ns with
    | nil => exact nomatch hn
    | cons m ns ih =>
      rcases List.mem_cons.1 hn with rfl | hn
      · exact le_max_left _ _
      · exact (ih hn).trans (le_max_right _ _)
  rw [height_eq t]
  exact Nat.lt_succ_of_le (hle (List.mem_map_of_mem h))

/-- A block opens three containers for each that is placed in it: itself, its slots, and a body or a slot
written out. -/
theorem depth_toJson_le (position : Option (Point Float)) (t : Tree) :
    (t.toJson position).depth ≤ 3 * t.height := by
  induction t using Tree.induction generalizing position with
  | step t ih =>
    obtain ⟨n, hn⟩ : ∃ n, t.height = n + 1 := ⟨_, height_eq t⟩
    have hbelow : ∀ k ∈ t.children, (k.toJson none).depth ≤ 3 * n := by
      intro k hk
      have hlt := height_lt hk
      have hle := ih k hk none
      omega
    obtain ⟨id, face, slots, chain⟩ := t
    have hchain : (Json.array (chain.map (toJson none))).depth ≤ 3 * n + 1 :=
      Nat.succ_le_succ (itemsDepth_le_iff.2 (List.forall_mem_map.2 fun k hk =>
        hbelow k (mem_children.2 (Or.inr hk))))
    have hslots : (ofMembers (slots.map fun s => (s.map (toJson none)).toJson)).depth ≤ 3 * n + 1 + 1 := by
      refine depth_ofMembers_le (List.forall_mem_map.2 fun s hs => Content.depth_toJson_le ?_)
      rw [Slot.map, Content.children_map]
      exact List.forall_mem_map.2 fun k hk => hbelow k (mem_children.2 (Or.inl ⟨s, hs, hk⟩))
    rw [toJson_node, hn, depth]
    exact Nat.succ_le_succ (membersDepth_blockMembers_le_iff.2 ⟨fun _ => Nat.le_succ_of_le hchain, hslots⟩)

theorem depth_recast (f : BlockId → BlockId) (g : Face → Face) (position' position : Option (Point Float))
    (h : t.Legal) : ((t.recast f g).toJson position').depth = (t.toJson position).depth := by
  induction t using Tree.induction generalizing position position' with
  | step t ih =>
    have hbelow : ∀ k ∈ t.children, ((k.recast f g).toJson none).depth = (k.toJson none).depth :=
      fun k hk => ih k hk none none (h.of_mem_children hk)
    obtain ⟨id, face, slots, chain⟩ := t
    have hchain : (Json.array (chain.map fun k => (k.recast f g).toJson none)).depth =
        (Json.array (chain.map (toJson none))).depth :=
      congrArg (· + 1) (itemsDepth_congr fun k hk => hbelow k (mem_children.2 (Or.inr hk)))
    have hslots : (ofMembers (slots.map fun s => (s.map fun k => (k.recast f g).toJson none).toJson)).depth =
        (ofMembers (slots.map fun s => (s.map (toJson none)).toJson)).depth := by
      rw [ofMembers_map (fun _ => rfl), ofMembers_map (fun _ => rfl)]
      refine congrArg (· + 1) (membersDepth_congr fun s hs => Content.depth_toJson_congr fun k hk => ?_)
      exact hbelow k (mem_children.2 (Or.inl ⟨s, (Slot.sort_perm h.nodup_names).mem_iff.1 hs, hk⟩))
    rw [recast_node, toJson_node, toJson_node, List.map_map, List.map_map, depth, depth]
    refine congrArg (· + 1) (eq_of_forall_ge_iff fun n => ?_)
    simp only [membersDepth_blockMembers_le_iff, Function.comp_def, Slot.map_map, hchain, hslots, ne_eq,
      List.map_eq_nil_iff]

end Tree

/-! ### Canvases -/

def Root.returned (f : Float → Float) (r : Root) : Root :=
  { r with position := r.position.returned f }

theorem Rect.legible_toJson (r : Rect Float) : r.toJson.Legible := by
  refine .object (List.pairwise_map.1 (?_ : ["height", "width", "x", "y"].Pairwise (· < ·))) ?_
  · decide +kernel
  · simp [legible_ofFloat]

theorem Rect.depth_toJson (r : Rect Float) : r.toJson.depth = 1 := by
  simp [toJson, depth, membersDepth, depth_ofFloat]

theorem Rect.reread_toJson (hf : ∀ {x}, Writes x → Writes (f x)) (r : Rect Float) :
    r.toJson.reread f = (r.returned f).toJson := by
  simp [toJson, reread, rereadMembers, reread_ofFloat hf, returned]

namespace Canvas

theorem legible_toJson (c : Canvas) : c.toJson.Legible := by
  refine .object (List.pairwise_map.1 (?_ : ["blocks", "bounds", "discardZone", "version"].Pairwise (· < ·))) ?_
  · decide +kernel
  · have hblocks : (Json.array (c.forest.map fun r => r.tree.toJson (some r.position))).Legible :=
      .array (List.forall_mem_map.2 fun r _ => r.tree.legible_toJson _)
    have hzone : (Json.ofOption Rect.toJson c.discardZone).Legible := by
      cases c.discardZone with
      | none => exact .null
      | some zone => exact zone.legible_toJson
    have hversion : (Json.int 1).Legible := .int (by decide) (by decide)
    simp [hblocks, c.bounds.legible_toJson, hzone, hversion]

theorem depth_toJson (c : Canvas) :
    c.toJson.depth = itemsDepth (c.forest.map fun r => r.tree.toJson (some r.position)) + 2 := by
  have hzone : (Json.ofOption Rect.toJson c.discardZone).depth ≤ 1 := by
    cases c.discardZone with
    | none => exact Nat.zero_le _
    | some zone => exact zone.depth_toJson.le
  simp only [toJson, depth, membersDepth, Rect.depth_toJson]
  omega

theorem depth_toJson_le {c : Canvas} {n : ℕ} (h : ∀ r ∈ c.forest, r.tree.height ≤ n) :
    c.toJson.depth ≤ 3 * n + 2 := by
  rw [depth_toJson]
  refine Nat.add_le_add_right (itemsDepth_le_iff.2 (List.forall_mem_map.2 fun r hr => ?_)) 2
  exact (r.tree.depth_toJson_le _).trans (Nat.mul_le_mul_left 3 (h r hr))

theorem reread_toJson (hf : ∀ {x}, Writes x → Writes (f x)) (c : Canvas) :
    c.toJson.reread f =
      .object
        [("blocks", .array ((c.forest.map (Root.returned f)).map fun r => r.tree.toJson (some r.position))),
          ("bounds", (c.bounds.returned f).toJson),
          ("discardZone", .ofOption Rect.toJson (c.discardZone.map (Rect.returned f))),
          ("version", .int 1)] := by
  have hzone : (Json.ofOption Rect.toJson c.discardZone).reread f =
      .ofOption Rect.toJson (c.discardZone.map (Rect.returned f)) := by
    cases c.discardZone with
    | none => rfl
    | some zone => exact zone.reread_toJson hf
  have hblocks : rereadItems f (c.forest.map fun r => r.tree.toJson (some r.position)) =
      (c.forest.map (Root.returned f)).map fun r => r.tree.toJson (some r.position) := by
    rw [rereadItems_eq, List.map_map, List.map_map]
    exact List.map_congr_left fun r _ => r.tree.reread_toJson hf _
  simp only [toJson, reread, rereadMembers, hblocks, hzone, Rect.reread_toJson hf]

/-- The text of a canvas is refused as JSON if and only if too many of its containers are open at once. -/
theorem read_toJsonText {json : Codec} (hjson : json.Lawful f) (c : Canvas) :
    json.read (c.toJsonText json) = if c.toJson.depth ≤ maxDepth then some (c.toJson.reread f) else none :=
  hjson.reads c.legible_toJson

/-! ### Reading what was saved -/

variable {c c' : Canvas}

def FrameWritable (c : Canvas) : Prop :=
  c.bounds.Writable ∧ ∀ zone, c.discardZone = some zone → zone.Writable

def Placeable (c : Canvas) : Prop :=
  ∀ b ∈ c.blocks, b.owner = .free → b.kind.isStatement = true

instance (c : Canvas) : Decidable c.Placeable :=
  inferInstanceAs (Decidable (∀ b ∈ c.blocks, b.owner = .free → b.kind.isStatement = true))

def rewritten (f : Float → Float) (c : Canvas) : Document :=
  ⟨some (c.bounds.returned f), c.discardZone.map (Rect.returned f),
    (c.forest.map (Root.returned f)).map Root.outlined⟩

theorem Sound.ofJson_reread (hf : ∀ {x}, Writes x → Writes (f x)) (h : c.Sound none) (hframe : c.FrameWritable) :
    ofJson (c.toJson.reread f) = (c.rewritten f).build := by
  have hlegal : ∀ r ∈ c.forest.map (Root.returned f), r.tree.Legal :=
    List.forall_mem_map.2 fun r hr => (h.legal_of_mem_forest hr : r.tree.Legal)
  have hbounds := (Document.rectOf_toJson_iff (c.bounds.returned f) _).2 ⟨hframe.1.returned hf, rfl⟩
  have hzone : (c.discardZone.map (Rect.returned f)).elim (.ok none)
      (fun zone => (Document.rectOf zone.toJson).map some) = .ok (c.discardZone.map (Rect.returned f)) := by
    cases hz : c.discardZone with
    | none => rfl
    | some zone =>
      have hrect := (Document.rectOf_toJson_iff (zone.returned f) _).2 ⟨(hframe.2 zone hz).returned hf, rfl⟩
      rw [Option.map_some, Option.elim_some, hrect]
      rfl
  have hread : Document.ofJson (c.toJson.reread f) = .ok (c.rewritten f) := by
    rw [reread_toJson hf, Document.ofJson_object, hbounds, hzone, Document.blocksOf_toJson hlegal]
    rfl
  rw [ofJson, hread]
  rfl

theorem Sound.isStatement_rewritten_iff (h : c.Sound none) :
    (∀ o ∈ (c.rewritten f).blocks, o.kind.isStatement = true) ↔ c.Placeable := by
  rw [Placeable, ← h.isStatement_forest_iff, rewritten, List.forall_mem_map, List.forall_mem_map]
  simp only [Root.kind_outlined, Root.returned]

theorem Sound.exists_reread (hf : ∀ {x}, Writes x → Writes (f x)) (h : c.Sound none) (hframe : c.FrameWritable)
    (hplace : c.Placeable) : ∃ c', ofJson (c.toJson.reread f) = .ok c' ∧
      c'.forest = (c.forest.map (Root.returned f)).map (Root.recast c.renumbered) := by
  have hlegal : ∀ r ∈ c.forest.map (Root.returned f), r.tree.Legal :=
    List.forall_mem_map.2 fun r hr => (h.legal_of_mem_forest hr : r.tree.Legal)
  obtain ⟨c', hbuild, -, hforest, -⟩ :=
    Document.exists_build (List.forall_mem_map.2 fun r hr => Root.legal_outlined (hlegal r hr))
      (h.isStatement_rewritten_iff.2 hplace)
  have hnodup : c.reading.Nodup := h.reading_perm.nodup_iff.2 (nodup_traverse h.toLinked)
  have hcounts : Counts c.renumbered 1 ((c.forest.map (Root.returned f)).flatMap fun r => r.tree.reading) := by
    rw [List.flatMap_map]
    exact counts_idxOf hnodup 1
  exact ⟨c', (h.ofJson_reread hf hframe).trans hbuild,
    hforest.trans (Root.plantAll_listed Tree.listing_outlined Point.restored hlegal hcounts)⟩

theorem Sound.placeable_of_reread (hf : ∀ {x}, Writes x → Writes (f x)) (h : c.Sound none)
    (hframe : c.FrameWritable) (hc' : ofJson (c.toJson.reread f) = .ok c') : c.Placeable :=
  h.isStatement_rewritten_iff.1
    (Document.isStatement_of_build ((h.ofJson_reread hf hframe).symm.trans hc'))

theorem program_reread {g : BlockId → BlockId}
    (hforest : c'.forest = (c.forest.map (Root.returned f)).map (Root.recast g)) (o : Python.Options) :
    c'.program o = c.restored.program o := by
  rw [← programOf_restored c g, Canvas.program, hforest, List.map_map, List.map_map]
  rfl

end Canvas
end BlockCanvas
