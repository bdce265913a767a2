import BlockCanvas.Document.OfJson
import BlockCanvas.Document.ToJson
import BlockCanvas.Proofs.Filling
import BlockCanvas.Proofs.JsonLaws
import BlockCanvas.Proofs.Reachable
import BlockCanvas.Proofs.Renumbering

/-!
Reading back what was written as JSON. What is written of a tree reads as the outline of the tree
(`Document.outlineOf_toJson`), so a canvas comes back as what is planted from its outlines: the same
forest under other ids (`Canvas.Reachable.ofJson_toJson`).
-/
namespace BlockCanvas

def Rect.Writable (r : Rect Float) : Prop :=
  Json.Writes r.x ∧ Json.Writes r.y ∧ Json.Writes r.width ∧ Json.Writes r.height

instance (r : Rect Float) : Decidable r.Writable :=
  inferInstanceAs (Decidable (_ ∧ _))

def Point.restored (p : Point Float) : Point Float :=
  ⟨if Json.Writes p.x then p.x else 0, if Json.Writes p.y then p.y else 0⟩

namespace Json

theorem float?_ofFloat (x : Float) : (ofFloat x).float? = if Writes x then some x else none := by
  rw [ofFloat]
  cases hx : Binary.ofFloat x <;> simp [Writes, hx, Binary.isFinite, float?]

/-! ### Members of objects -/

variable {key : String} {members members' : List (String × Json)}

theorem find?_append :
    find? key (members ++ members') = (find? key members).or (find? key members') := by
  simp only [find?, List.find?_append, Option.map_or]

theorem find?_member (key k : String) (value : Option Json) :
    find? key (Tree.member k value) = if k = key then value else none := by
  cases value with
  | none => simp [Tree.member, find?]
  | some v => by_cases h : k = key <;> simp [Tree.member, find?, h]

theorem find?_singleton (key k : String) (value : Json) :
    find? key [(k, value)] = if k = key then some value else none :=
  find?_member key k (some value)

theorem key_of_mem_member {k : String} {value : Option Json} {m : String × Json}
    (h : m ∈ Tree.member k value) : m.1 = k := by
  cases value with
  | none => exact nomatch h
  | some v => exact congrArg Prod.fst (List.mem_singleton.1 h)

theorem nameMember_eq (face : Face) :
    Tree.nameMember face =
      Tree.member "name" (if face.name.isEmpty then none else some (.string face.name)) := by
  rw [Tree.nameMember]
  split <;> rfl

theorem map_insert {β : Type} {f : Slot β → String × Json} (hf : ∀ s, (f s).1 = s.name) (s : Slot β)
    (slots : List (Slot β)) :
    insertMember (f s).1 (f s).2 (slots.map f) = (Slot.insert s slots).map f := by
  induction slots with
  | nil => rfl
  | cons s' slots ih =>
    have hpair : ∀ s, (s.name, (f s).2) = f s := fun s => Prod.ext (hf s).symm rfl
    rw [List.map_cons, insertMember, Slot.insert, apply_ite (List.map f), apply_ite (List.map f), ih]
    simp only [hf, hpair, List.map_cons]

theorem ofMembers_map {β : Type} {f : Slot β → String × Json} (hf : ∀ s, (f s).1 = s.name)
    (slots : List (Slot β)) : ofMembers (slots.map f) = .object ((Slot.sort slots).map f) := by
  rw [ofMembers]
  congr 1
  induction slots using List.reverseRecOn with
  | nil => rfl
  | append_singleton slots s ih =>
    rw [List.map_append, List.foldl_append, ih, Slot.sort_append_singleton, ← map_insert hf]
    rfl

end Json

namespace Kind

theorem ofText?_name (k : Kind) : ofText? k.name = some k := by
  cases k <;> decide

end Kind

namespace Operator

theorem ofText?_name (op : Operator) : ofText? op.name = some op := by
  cases op <;> decide

end Operator

namespace Document
open Json

/-! ### Blocks -/

theorem find?_blockMembers {key : String} (hc : key ≠ "chain") (hs : key ≠ "slots") (face : Face)
    (position : Option (Point Float)) (chain : List Json) (slots : List (String × Json)) :
    find? key (Tree.blockMembers face position chain slots) =
      ((((if "kind" = key then some (.string face.kind.name) else none).or
        (if "literal" = key then face.override.map .string else none)).or
        (if "name" = key then if face.name.isEmpty then none else some (.string face.name) else none)).or
        (if "operator" = key then face.operator.map fun op => .string op.name else none)).or
        ((if "x" = key then position.map fun p => .ofFloat p.x else none).or
        (if "y" = key then position.map fun p => .ofFloat p.y else none)) := by
  have hchain : find? key (if chain.isEmpty then [] else [("chain", .array chain)]) = none := by
    split
    · rfl
    · rw [find?_singleton, if_neg (Ne.symm hc)]
  simp only [Tree.blockMembers, find?_append, hchain, nameMember_eq, find?_member, find?_singleton,
    if_neg (Ne.symm hs), Option.or_none, Option.none_or, Option.or_assoc]

theorem captionOf_blockMembers (face : Face) (position : Option (Point Float)) (chain : List Json)
    (slots : List (String × Json)) :
    captionOf (Tree.blockMembers face position chain slots) =
      .ok (face.caption ((position.map Point.restored).getD .origin)) := by
  obtain ⟨kind, name, operator, override⟩ := face
  let members := Tree.blockMembers ⟨kind, name, operator, override⟩ position chain slots
  have hkind : (find? "kind" members).bind string? = some kind.name := by
    simp [members, find?_blockMembers, string?]
  have hname : (find? "name" members).bind string? = if name.isEmpty then none else some name := by
    simp only [members, find?_blockMembers, ne_eq, String.reduceEq, not_false_eq_true, if_false, if_true,
      Option.none_or, Option.or_none]
    split <;> rfl
  have hoperator : (find? "operator" members).bind string? = operator.map Operator.name := by
    cases operator <;> simp [members, find?_blockMembers, string?]
  have hoverride : (find? "literal" members).bind string? = override := by
    cases override <;> simp [members, find?_blockMembers, string?]
  have hx : ((find? "x" members).bind float?).getD 0 =
      ((position.map Point.restored).getD .origin).x := by
    cases position with
    | none => simp [members, find?_blockMembers, Point.origin]
    | some p =>
      by_cases h : Writes p.x <;>
        simp [members, find?_blockMembers, float?_ofFloat, Point.restored, h]
  have hy : ((find? "y" members).bind float?).getD 0 =
      ((position.map Point.restored).getD .origin).y := by
    cases position with
    | none => simp [members, find?_blockMembers, Point.origin]
    | some p =>
      by_cases h : Writes p.y <;>
        simp [members, find?_blockMembers, float?_ofFloat, Point.restored, h]
  change captionOf members = _
  simp only [captionOf, hkind, hname, hoperator, hoverride, hx, hy, bind, Except.bind, pure, Except.pure,
    Kind.ofText?_name]
  cases operator with
  | none => rfl
  | some op => simp only [Option.map_some, Operator.ofText?_name]; rfl

/-! ### Slots and chains -/

theorem slotsOf_append {kind : Kind} {members : List (String × Json)}
    (h : ∀ m ∈ members, m.1 ≠ "slots") (rest : List (String × Json)) :
    slotsOf kind (members ++ rest) = slotsOf kind rest := by
  induction members with
  | nil => rfl
  | cons m members ih =>
    obtain ⟨key, value⟩ := m
    have hkey : key ≠ "slots" := h _ List.mem_cons_self
    cases value <;> simp [slotsOf, hkey, ih fun m hm => h m (List.mem_cons_of_mem _ hm)]

theorem chainOf_append {kind : Kind} {members : List (String × Json)}
    (h : ∀ m ∈ members, m.1 ≠ "chain") (rest : List (String × Json)) :
    chainOf kind (members ++ rest) = chainOf kind rest := by
  induction members with
  | nil => rfl
  | cons m members ih =>
    obtain ⟨key, value⟩ := m
    have hkey : key ≠ "chain" := h _ List.mem_cons_self
    cases value <;> simp [chainOf, hkey, ih fun m hm => h m (List.mem_cons_of_mem _ hm)]

def captionMembers (face : Face) : List (String × Json) :=
  [("kind", .string face.kind.name)] ++ Tree.member "literal" (face.override.map .string) ++
    Tree.nameMember face ++ Tree.member "operator" (face.operator.map fun op => .string op.name)

theorem key_of_mem_captionMembers {face : Face} {m : String × Json} (h : m ∈ captionMembers face) :
    m.1 ≠ "slots" ∧ m.1 ≠ "chain" := by
  simp only [captionMembers, nameMember_eq, List.mem_append] at h
  rcases h with ((h | h) | h) | h
  · simp [List.mem_singleton.1 h]
  all_goals
    rw [key_of_mem_member h]
    decide

theorem blockMembers_eq (face : Face) (position : Option (Point Float)) (chain : List Json)
    (slots : List (String × Json)) :
    Tree.blockMembers face position chain slots =
      (if chain.isEmpty then [] else [("chain", .array chain)]) ++ (captionMembers face ++
        (("slots", .ofMembers slots) :: (Tree.member "x" (position.map fun p => .ofFloat p.x) ++
          Tree.member "y" (position.map fun p => .ofFloat p.y)))) := by
  simp [Tree.blockMembers, captionMembers]

theorem slotsOf_blockMembers (kind : Kind) (face : Face) (position : Option (Point Float))
    (chain : List Json) {slots sorted : List (String × Json)}
    (hsorted : ofMembers slots = .object sorted) :
    slotsOf kind (Tree.blockMembers face position chain slots) = slotMembers kind sorted := by
  rw [blockMembers_eq, slotsOf_append, slotsOf_append, hsorted]
  · simp [slotsOf]
  · exact fun m hm => (key_of_mem_captionMembers hm).1
  · intro m hm
    split at hm
    · exact nomatch hm
    · simp [List.mem_singleton.1 hm]

theorem chainOf_blockMembers (kind : Kind) (face : Face) (position : Option (Point Float))
    (chain : List Json) (slots : List (String × Json)) :
    chainOf kind (Tree.blockMembers face position chain slots) = connectorsOf chain := by
  have hrest : chainOf kind (captionMembers face ++ (("slots", .ofMembers slots) ::
      (Tree.member "x" (position.map fun p => .ofFloat p.x) ++
        Tree.member "y" (position.map fun p => .ofFloat p.y)))) = .ok [] := by
    rw [← List.append_nil (captionMembers face ++ _), chainOf_append]
    · rfl
    · intro m hm
      simp only [List.mem_append, List.mem_cons] at hm
      rcases hm with hm | rfl | hm | hm
      · exact (key_of_mem_captionMembers hm).2
      · simp
      all_goals
        rw [key_of_mem_member hm]
        decide
  rw [blockMembers_eq]
  cases chain with
  | nil => exact hrest
  | cons item items => simp [chainOf]

end Document

/-! ### Trees -/

namespace Entry

def toJson : Entry Json → Json
  | .block b => b
  | .line text => .string text

end Entry

namespace Content

def toJson : Content Json → Json
  | .value none literal => .string literal
  | .value (some child) literal => .object [("block", child), ("literal", .string literal)]
  | .body entries => .array (entries.map Entry.toJson)

end Content

namespace Slot

def toJson (s : Slot Json) : String × Json :=
  (s.name, s.content.toJson)

end Slot

namespace Tree

theorem slotsToJson_eq (slots : List (Slot Tree)) :
    slotsToJson slots = slots.map fun s => (s.map (toJson none)).toJson := by
  have hentries : ∀ entries, entriesToJson entries =
      (entries.map (Entry.map (toJson none))).map Entry.toJson := by
    intro entries
    induction entries with
    | nil => rfl
    | cons e entries ih => cases e <;> simp [entriesToJson, ih, Entry.map, Entry.toJson]
  induction slots with
  | nil => rfl
  | cons s slots ih =>
    obtain ⟨name, content⟩ := s
    cases content with
    | value child literal =>
      cases child <;> simp [slotsToJson, ih, Slot.map, Content.map, Slot.toJson, Content.toJson]
    | body entries =>
      simp [slotsToJson, ih, hentries, Slot.map, Content.map, Slot.toJson, Content.toJson]

theorem chainToJson_eq (chain : List Tree) : chainToJson chain = chain.map (toJson none) := by
  induction chain with
  | nil => rfl
  | cons t ts ih => simp [chainToJson, ih]

theorem toJson_eq_object (position : Option (Point Float)) (t : Tree) :
    ∃ members, t.toJson position = .object members := by
  obtain ⟨id, face, slots, chain⟩ := t
  exact ⟨_, rfl⟩

end Tree

namespace Document
open Json

def Reads (t : Tree) : Prop :=
  outlineOf (t.toJson none) = .ok t.outlined

theorem entriesOf_toJson {entries : List (Entry Tree)}
    (h : ∀ t ∈ entries.filterMap Entry.block?, Reads t) :
    entriesOf ((entries.map (Entry.map (Tree.toJson none))).map Entry.toJson) =
      .ok (entries.map (Entry.map Tree.outlined)) := by
  induction entries with
  | nil => rfl
  | cons e entries ih =>
    cases e with
    | line text =>
      simp only [List.map_cons, Entry.map, Entry.toJson, entriesOf, ih h, bind, Except.bind, pure,
        Except.pure, scalarText]
    | block t =>
      have hcons : (Entry.block t :: entries).filterMap Entry.block? =
          t :: entries.filterMap Entry.block? := rfl
      rw [hcons] at h
      have ht := h t List.mem_cons_self
      have hrest := ih fun k hk => h k (List.mem_cons_of_mem _ hk)
      obtain ⟨members, hm⟩ := t.toJson_eq_object none
      rw [Reads, hm] at ht
      simp only [List.map_cons, Entry.map, Entry.toJson, hm, entriesOf, ht, hrest, bind, Except.bind,
        pure, Except.pure]

theorem contentOf_toJson {content : Content Tree} (h : ∀ t ∈ content.children, Reads t) :
    contentOf (content.map (Tree.toJson none)).toJson = .ok (content.map Tree.outlined) := by
  cases content with
  | body entries => 
    simp only [Content.map, Content.toJson, contentOf, entriesOf_toJson h, bind, Except.bind, pure,
      Except.pure]
  | value child literal =>
    cases child with
    | none => rfl
    | some t =>
      have ht := h t (List.mem_singleton_self t)
      obtain ⟨members, hm⟩ := t.toJson_eq_object none
      rw [Reads, hm] at ht
      simp [Content.map, Content.toJson, contentOf, hm, childOf, ht, find?, literalOf, scalarText, bind,
        Except.bind, pure, Except.pure]

theorem slotMembers_toJson (kind : Kind) {slots : List (Slot Tree)}
    (h : ∀ t ∈ slots.flatMap Slot.children, Reads t) :
    slotMembers kind (slots.map fun s => (s.map (Tree.toJson none)).toJson) =
      .ok (slots.map (Slot.map Tree.outlined)) := by
  induction slots with
  | nil => rfl
  | cons s slots ih =>
    rw [List.flatMap_cons] at h
    have hs := contentOf_toJson fun t ht => h t (List.mem_append_left _ ht)
    have hrest := ih fun t ht => h t (List.mem_append_right _ ht)
    have hcons : slotMembers kind ((s.name, (s.content.map (Tree.toJson none)).toJson) ::
        slots.map fun s => (s.map (Tree.toJson none)).toJson) =
          .ok (s.map Tree.outlined :: slots.map (Slot.map Tree.outlined)) := by
      simp only [slotMembers, hs, inSlot, hrest, bind, Except.bind, pure, Except.pure]
      rfl
    exact hcons

theorem connectorsOf_toJson {chain : List Tree} (h : ∀ t ∈ chain, Reads t) :
    connectorsOf (chain.map (Tree.toJson none)) = .ok (chain.map Tree.outlined) := by
  induction chain with
  | nil => rfl
  | cons t ts ih =>
    have ht := h t List.mem_cons_self
    have hrest := ih fun k hk => h k (List.mem_cons_of_mem _ hk)
    rw [Reads] at ht
    simp only [List.map_cons, connectorsOf, ht, hrest, bind, Except.bind, pure, Except.pure]

theorem outlineOf_toJson {t : Tree} (h : t.Legal) (position : Option (Point Float)) :
    outlineOf (t.toJson position) =
      .ok (t.outlined.moved ((position.map Point.restored).getD .origin)) := by
  induction t using Tree.induction generalizing position with
  | step t ih =>
    obtain ⟨id, face, slots, chain⟩ := t
    have hreads : ∀ k ∈ (Slot.sort slots).flatMap Slot.children ++ chain, Reads k := by
      intro k hk
      have hk' := (Tree.perm_children id face (Slot.sort_perm h.nodup_names)).mem_iff.1 hk
      rw [Reads, ih k hk' (h.of_mem_children hk') none]
      obtain ⟨id, face, slots, chain⟩ := k
      rw [Tree.outlined_node]
      rfl
    have hslots := slotMembers_toJson face.kind fun k hk => hreads k (List.mem_append_left _ hk)
    have hchain := connectorsOf_toJson fun k hk => hreads k (List.mem_append_right _ hk)
    have hsorted : ofMembers (Tree.slotsToJson slots) =
        .object ((Slot.sort slots).map fun s => (s.map (Tree.toJson none)).toJson) := by
      rw [Tree.slotsToJson_eq]
      exact ofMembers_map (fun _ => rfl) slots
    rw [Tree.toJson, outlineOf]
    simp only [captionOf_blockMembers, slotsOf_blockMembers _ _ _ _ hsorted, chainOf_blockMembers,
      Tree.chainToJson_eq, Face.kind_caption, hslots, hchain, bind, Except.bind, pure, Except.pure]
    rw [Tree.outlined_node]
    rfl

/-! ### Documents -/

theorem field_toJson (r : Rect Float) :
    field r.toJson "x" = (if Writes r.x then .ok r.x else .error (.rectangleLacks "x")) ∧
      field r.toJson "y" = (if Writes r.y then .ok r.y else .error (.rectangleLacks "y")) ∧
      field r.toJson "width" =
        (if Writes r.width then .ok r.width else .error (.rectangleLacks "width")) ∧
      field r.toJson "height" =
        (if Writes r.height then .ok r.height else .error (.rectangleLacks "height")) := by
  have hfield : ∀ name (x : Float), r.toJson.member? name = some (.ofFloat x) →
      field r.toJson name = if Writes x then .ok x else .error (.rectangleLacks name) := by
    intro name x hx
    rw [field, hx, Option.bind_some, float?_ofFloat]
    by_cases h : Writes x <;> simp only [if_pos, if_neg, h, not_false_eq_true]
  exact ⟨hfield _ _ rfl, hfield _ _ rfl, hfield _ _ rfl, hfield _ _ rfl⟩

theorem rectOf_toJson_iff (r r' : Rect Float) : rectOf r.toJson = .ok r' ↔ r.Writable ∧ r = r' := by
  obtain ⟨hx, hy, hw, hh⟩ := field_toJson r
  obtain ⟨x, y, width, height⟩ := r
  simp only [rectOf, hx, hy, hw, hh, Rect.Writable]
  by_cases h₁ : Writes x <;> by_cases h₂ : Writes y <;> by_cases h₃ : Writes width <;>
    by_cases h₄ : Writes height <;>
    simp [h₁, h₂, h₃, h₄, bind, Except.bind, pure, Except.pure]

end Document

namespace Root

def outlined (r : Root) : Outline :=
  r.tree.outlined.moved r.position.restored

end Root

namespace Document
open Json

theorem blocksOf_toJson {roots : List Root} (h : ∀ r ∈ roots, r.tree.Legal) (index : Nat) :
    blocksOf index (roots.map fun r => r.tree.toJson (some r.position)) =
      .ok (roots.map Root.outlined) := by
  induction roots generalizing index with
  | nil => rfl
  | cons r roots ih =>
    have hr := outlineOf_toJson (h r List.mem_cons_self) (some r.position)
    have hrest := ih (fun r hr => h r (List.mem_cons_of_mem _ hr)) (index + 1)
    simp only [List.map_cons, blocksOf, hr, hrest, bind, Except.bind, pure, Except.pure]
    rfl

theorem ofJson_object (items : List Json) (bounds : Rect Float) (zone : Option (Rect Float)) :
    Document.ofJson (.object [("blocks", .array items), ("bounds", bounds.toJson),
      ("discardZone", .ofOption Rect.toJson zone), ("version", .int 1)]) =
        (rectOf bounds.toJson).bind fun bounds =>
          (zone.elim (.ok none) fun zone => (rectOf zone.toJson).map some).bind fun zone =>
            (blocksOf 0 items).bind fun blocks => .ok ⟨some bounds, zone, blocks⟩ := by
  have hversion : (Json.int 1).nat? = some 1 := rfl
  cases zone with
  | none =>
    cases hb : rectOf bounds.toJson <;> cases hi : blocksOf 0 items <;>
      simp [Document.ofJson, find?, hb, hi, hversion, version, bind, Except.bind, Except.map, pure,
        Except.pure, ofOption]
  | some zone =>
    cases hb : rectOf bounds.toJson <;> cases hz : rectOf zone.toJson <;> cases hi : blocksOf 0 items <;>
      simp only [Rect.toJson] at hb hz <;>
      simp [Document.ofJson, find?, hb, hi, hz, hversion, version, bind, Except.bind, Except.map, pure,
        Except.pure, ofOption, Rect.toJson]

theorem ofJson_toJson_iff {c : Canvas} (h : ∀ r ∈ c.forest, r.tree.Legal) (d : Document) :
    Document.ofJson c.toJson = .ok d ↔
      (c.bounds.Writable ∧ ∀ zone, c.discardZone = some zone → zone.Writable) ∧
        ⟨some c.bounds, c.discardZone, c.forest.map Root.outlined⟩ = d := by
  rw [Canvas.toJson, ofJson_object, blocksOf_toJson h]
  cases hb : rectOf c.bounds.toJson with
  | error e =>
    have hnot : ¬ c.bounds.Writable := fun hw => by
      simp [(rectOf_toJson_iff c.bounds c.bounds).2 ⟨hw, rfl⟩] at hb
    simp [Except.bind, hnot]
  | ok bounds =>
    obtain ⟨hw, rfl⟩ := (rectOf_toJson_iff _ _).1 hb
    cases c.discardZone with
    | none => simp [Except.bind, hw]
    | some zone =>
      cases hz : rectOf zone.toJson with
      | error e =>
        have hnot : ¬ zone.Writable := fun hw => by
          simp [(rectOf_toJson_iff zone zone).2 ⟨hw, rfl⟩] at hz
        simp [Except.bind, Except.map, hz, hnot]
      | ok zone' =>
        obtain ⟨hw', rfl⟩ := (rectOf_toJson_iff _ _).1 hz
        simp [Except.bind, Except.map, hz, hw, hw']

theorem isStatement_of_placeAll {os : List Outline} {c c' : Canvas} (h : placeAll c os = .ok c') :
    ∀ o ∈ os, o.kind.isStatement = true := by
  induction os generalizing c with
  | nil => exact List.forall_mem_nil _
  | cons o os ih =>
    cases ho : o.kind.isStatement with
    | false => simp [placeAll, ho] at h
    | true =>
      simp only [placeAll, ho, Bool.not_true, Bool.false_eq_true, if_false, bind, Except.bind] at h
      split at h
      · cases h
      · exact List.forall_mem_cons.2 ⟨ho, ih h⟩

theorem isStatement_of_build {d : Document} {c : Canvas} (h : d.build = .ok c) :
    ∀ o ∈ d.blocks, o.kind.isStatement = true := by
  simp only [build, bind, Except.bind] at h
  split at h
  · exact nomatch h
  · exact isStatement_of_placeAll (by assumption)

end Document

namespace Tree

theorem id_recast (f : BlockId → BlockId) (g : Face → Face) (t : Tree) : (t.recast f g).id = f t.id := by
  obtain ⟨id, face, slots, chain⟩ := t
  rw [recast_node]
  rfl

theorem children_recast (f : BlockId → BlockId) (g : Face → Face) (t : Tree) :
    (t.recast f g).children = t.children.map (recast f g) := by
  obtain ⟨id, face, slots, chain⟩ := t
  simp [recast_node, children, Tree.slots, Tree.chain, List.flatMap_map, List.map_flatMap]

theorem ids_recast (f : BlockId → BlockId) (g : Face → Face) (t : Tree) :
    (t.recast f g).ids = t.ids.map f := by
  induction t using Tree.induction with
  | step t ih =>
    rw [ids_eq, ids_eq, id_recast, children_recast, List.map_cons, List.flatMap_map, List.map_flatMap]
    refine congrArg (f t.id :: ·) ?_
    rw [List.flatMap_def, List.flatMap_def, List.map_congr_left ih]

end Tree

namespace Root

def recast (f : BlockId → BlockId) (r : Root) : Root :=
  ⟨r.position.restored, r.tree.recast f Face.restored⟩

theorem kind_outlined (r : Root) : r.outlined.kind = r.tree.kind :=
  kind_listed Tree.listing_outlined Point.restored r

theorem legal_outlined {r : Root} (h : r.tree.Legal) : r.outlined.Legal :=
  legal_listed Tree.listing_outlined Point.restored h

end Root

namespace Canvas
variable {c c' : Canvas}

structure Copies (c c' : Canvas) (f : BlockId → BlockId) : Prop where
  bounds : c'.bounds = c.bounds
  discardZone : c'.discardZone = c.discardZone
  roots : c'.roots = c.roots.map f
  forest : c'.forest = c.forest.map (Root.recast f)
  traverse : c'.traverse = c.traverse.map f
  injective : ∀ a ∈ c.blocks, ∀ b ∈ c.blocks, f a.id = f b.id → a.id = b.id

def reading (c : Canvas) : List BlockId :=
  c.forest.flatMap fun r => r.tree.reading

theorem Sound.reading_perm (h : c.Sound none) : c.reading.Perm c.traverse := by
  rw [← flatMap_ids_forest h.toLinked]
  exact List.Perm.flatMap_left _ fun r hr =>
    Tree.listing_outlined.reading_perm (h.legal_of_mem_forest hr)

/-- A block comes back under its place in the reading order. -/
def renumbered (c : Canvas) (id : BlockId) : BlockId :=
  1 + c.reading.idxOf id

theorem map_of_forest (h : c.Linked none) (h' : c'.Linked none) {f : BlockId → BlockId} {g : Root → Root}
    (hforest : c'.forest = c.forest.map g) (hids : ∀ r, (g r).tree.ids = r.tree.ids.map f) :
    c'.roots = c.roots.map f ∧ c'.traverse = c.traverse.map f := by
  have hid : ∀ r, (g r).tree.id = f r.tree.id := by
    intro r
    have hhead := hids r
    rw [Tree.ids_eq, Tree.ids_eq, List.map_cons] at hhead
    exact (List.cons.inj hhead).1
  constructor
  · rw [← map_id_forest h', ← map_id_forest h, hforest, List.map_map, List.map_map]
    exact List.map_congr_left fun r _ => hid r
  · rw [← flatMap_ids_forest h', ← flatMap_ids_forest h, hforest, List.flatMap_map, List.map_flatMap]
    simp only [hids]

theorem injective_idxOf (h : c.Linked none) {ids : List BlockId} (hids : ids.Perm c.traverse) (n : Nat) :
    ∀ a ∈ c.blocks, ∀ b ∈ c.blocks, n + ids.idxOf a.id = n + ids.idxOf b.id → a.id = b.id := by
  intro a ha b hb hab
  have hmem : ∀ {b : Block}, b ∈ c.blocks → b.id ∈ ids := fun hb =>
    hids.mem_iff.2 ((mem_traverse_iff h).2 ⟨_, hb, rfl⟩)
  exact (List.idxOf_inj (hmem ha)).1 (Nat.add_left_cancel hab)

theorem Sound.copies (h : c.Sound none) (h' : c'.Sound none) (hbounds : c'.bounds = c.bounds)
    (hzone : c'.discardZone = c.discardZone)
    (hforest : c'.forest = Outline.plantAll 1 (c.forest.map Root.outlined)) :
    c.Copies c' c.renumbered := by
  have hnodup : c.reading.Nodup := h.reading_perm.nodup_iff.2 (nodup_traverse h.toLinked)
  have hcopied : c'.forest = c.forest.map (Root.recast c.renumbered) :=
    hforest.trans (Root.plantAll_listed Tree.listing_outlined Point.restored
      (fun r hr => h.legal_of_mem_forest hr) (counts_idxOf hnodup 1))
  obtain ⟨hroots, htraverse⟩ := map_of_forest h.toLinked h'.toLinked hcopied fun r =>
    Tree.ids_recast c.renumbered Face.restored r.tree
  exact ⟨hbounds, hzone, hroots, hcopied, htraverse, injective_idxOf h.toLinked h.reading_perm 1⟩

theorem Sound.isStatement_forest_iff (h : c.Sound none) :
    (∀ r ∈ c.forest, r.tree.kind.isStatement = true) ↔
      ∀ b ∈ c.blocks, b.owner = .free → b.kind.isStatement = true := by
  have hkind : ∀ b ∈ c.blocks, ∀ t, c.tree? b.id = some t → t.kind = b.kind := by
    intro b hb t ht
    have hk := kind?_of_tree? h.toLinked ht
    rw [kind?, block?_of_mem h.ascending hb, Option.map_some] at hk
    exact (Option.some.inj hk).symm
  constructor
  · intro hroots b hb hfree
    obtain ⟨t, ht⟩ := exists_tree? h.toLinked (block?_of_mem h.ascending hb)
    have hk := hroots ⟨b.position, t⟩ ((mem_forest_iff h.toLinked).2 ⟨b, hb, hfree, rfl, ht⟩)
    rwa [hkind b hb t ht] at hk
  · intro hblocks r hr
    obtain ⟨b, hb, hfree, -, ht⟩ := (mem_forest_iff h.toLinked).1 hr
    rw [hkind b hb r.tree ht]
    exact hblocks b hb hfree

theorem Sound.isStatement_outlined_iff (h : c.Sound none) :
    (∀ o ∈ c.forest.map Root.outlined, o.kind.isStatement = true) ↔
      ∀ b ∈ c.blocks, b.owner = .free → b.kind.isStatement = true := by
  rw [List.forall_mem_map, ← h.isStatement_forest_iff]
  simp only [Root.kind_outlined]

/-- A canvas comes back from its document if and only if its free blocks are statements and the numbers
of its frame can be written, and then it is the same under other ids. -/
theorem Reachable.ofJson_toJson (h : c.Reachable) :
    ((∃ c', ofJson c.toJson = .ok c') ↔
      (∀ b ∈ c.blocks, b.owner = .free → b.kind.isStatement = true) ∧ c.bounds.Writable ∧
        ∀ zone, c.discardZone = some zone → zone.Writable) ∧
      ∀ c', ofJson c.toJson = .ok c' → c'.Consistent ∧ ∃ f, c.Copies c' f := by
  have hs := h.sound
  have hlegal : ∀ r ∈ c.forest, r.tree.Legal := fun r hr => hs.legal_of_mem_forest hr
  let d : Document := ⟨some c.bounds, c.discardZone, c.forest.map Root.outlined⟩
  have hread : ∀ c', ofJson c.toJson = .ok c' ↔
      (c.bounds.Writable ∧ ∀ zone, c.discardZone = some zone → zone.Writable) ∧ d.build = .ok c' := by
    intro c'
    constructor
    · intro hc'
      cases hd : Document.ofJson c.toJson with
      | error e => simp [ofJson, hd, bind, Except.bind] at hc'
      | ok d' =>
        obtain ⟨hframe, rfl⟩ := (Document.ofJson_toJson_iff hlegal d').1 hd
        simp only [ofJson, hd, bind, Except.bind] at hc'
        exact ⟨hframe, hc'⟩
    · rintro ⟨hframe, hbuild⟩
      have hd := (Document.ofJson_toJson_iff hlegal d).2 ⟨hframe, rfl⟩
      simp only [ofJson, hd, bind, Except.bind, hbuild]
  have hbuilt : (∀ b ∈ c.blocks, b.owner = .free → b.kind.isStatement = true) →
      ∃ c', d.build = .ok c' ∧ c'.Sound none ∧ c.Copies c' c.renumbered := by
    intro hfree
    obtain ⟨c', hbuild, hs', hforest, hbounds, hzone⟩ := Document.exists_build (d := d)
      (List.forall_mem_map.2 fun r hr => Root.legal_outlined (hlegal r hr))
      (hs.isStatement_outlined_iff.2 hfree)
    exact ⟨c', hbuild, hs', hs.copies hs' hbounds hzone hforest⟩
  refine ⟨⟨?_, ?_⟩, ?_⟩
  · rintro ⟨c', hc'⟩
    obtain ⟨hframe, hbuild⟩ := (hread c').1 hc'
    exact ⟨hs.isStatement_outlined_iff.1 (Document.isStatement_of_build hbuild), hframe⟩
  · rintro ⟨hfree, hframe⟩
    obtain ⟨c', hbuild, -⟩ := hbuilt hfree
    exact ⟨c', (hread c').2 ⟨hframe, hbuild⟩⟩
  · intro c' hc'
    obtain ⟨-, hbuild⟩ := (hread c').1 hc'
    obtain ⟨c'', hbuild', hs', hcopies⟩ :=
      hbuilt (hs.isStatement_outlined_iff.1 (Document.isStatement_of_build hbuild))
    obtain rfl : c'' = c' := Except.ok.inj (hbuild'.symm.trans hbuild)
    exact ⟨consistent_of_sound hs', _, hcopies⟩

theorem ofJson_toJson_branching :
    let edits : List Edit :=
      [.instantiate .ifBranch ⟨10, 20⟩, .instantiate .elseBranch .origin, .attachConnector 2 1,
        .instantiateInto .operation ⟨1, 0⟩, .pushLine ⟨1, 1⟩ "pass", .instantiateInto .forLoop ⟨1, 1⟩]
    let c := Edit.run (withBounds ⟨0, 0, 800, 600⟩) edits
    c.Reachable ∧ (∃ c', ofJson c.toJson = .ok c' ∧ c'.Consistent ∧ ∃ f, c.Copies c' f) ∧
      ¬ ∃ c', ofJson ((Edit.instantiate .operation .origin).apply c).1.toJson = .ok c' := by
  intro edits c
  have hc : c.Reachable := Reachable.run (.start _) _
  obtain ⟨c', hc'⟩ := (Reachable.ofJson_toJson hc).1.2 ⟨by decide, by decide, nofun⟩
  refine ⟨hc, ⟨c', hc', (Reachable.ofJson_toJson hc).2 c' hc'⟩, fun hloose => ?_⟩
  have hfree := ((Reachable.ofJson_toJson (.edit (.instantiate .operation .origin) hc)).1.1 hloose).1
  exact absurd hfree (by decide)

end Canvas
end BlockCanvas
