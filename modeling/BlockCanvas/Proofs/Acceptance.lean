import BlockCanvas.Document.OfJson
import BlockCanvas.Proofs.JsonLaws
import BlockCanvas.Proofs.Sketch

/-!
Which documents are built. A document in which no block names a slot twice is legal if it can be built at
all: what each edit of the builder checks is what `Outline.Legal` asks for. Since the outline of a block is
legal once the block is filled in, the tree it grew into is known, and with it what the next edit checks.
-/
namespace BlockCanvas

theorem Content.children_typed {β : Type} (text : String) (content : Content β) :
    (content.typed text).children = content.children := by
  cases content <;> rfl

namespace Outline

inductive Distinct : Outline → Prop
  | node {given : Caption} {slots : List (Slot Outline)} {chain : List Outline} :
      (slots.map Slot.name).Nodup → (∀ s ∈ slots, ∀ o ∈ s.children, Distinct o) →
      (∀ o ∈ chain, Distinct o) → Distinct (.node given slots chain)

def Vetted (o : Outline) : Prop :=
  ∀ {c c' : Canvas} {id : BlockId} {b : Block}, c.Sound none → c.block? id = some b →
    b.Fresh o.kind → Document.fill c id o = .ok c' → o.Legal

/-- The outlines can join the chain of a block of the kind, behind the trees that are in it. -/
structure Joins (kind : Kind) (done : List Tree) (given : List Outline) : Prop where
  kind_eq : given ≠ [] → kind = .ifBranch
  connectors : ∀ o ∈ given, o.kind.isConnector = true
  apart : ∀ k ∈ done, ∀ o ∈ given, ¬ (k.kind = .elseBranch ∧ o.kind = .elseBranch)
  pairwise : given.Pairwise fun o o' => ¬ (o.kind = .elseBranch ∧ o'.kind = .elseBranch)
  legal : ∀ o ∈ given, o.Legal

end Outline

namespace Canvas
variable {c c' c₁ c₂ : Canvas} {id k : BlockId} {t : Tree} {index : Nat} {o : Outline}

theorem vetted_nested (ho : o.Vetted) (h : c.Sound none) (ht : c.tree? id = some t) {s : Slot Tree}
    (hs : t.slots[index]? = some s) (hroom : s.shape = .value → s.children = [])
    {evicted : Option BlockId} (hinto : c.instantiateInto o.kind ⟨id, index⟩ = (c₁, .ok (k, evicted)))
    (hfill : Document.fill c₁ k o = .ok c₂) :
    canNest (.slot t.kind s.shape) (.block o.kind) = true ∧ o.Legal ∧ c.Growth c₂ id ∧
      c₂.tree? id = some (t.reslot index (Content.graft (o.plant c.nextId (c.nextId + 1)).1)) := by
  obtain ⟨hfits, rfl, hnext, hs₁, b, hb, hfresh, hgrown⟩ := nested_of_instantiateInto h ht hs hroom hinto
  have hlegal := ho hs₁ hb hfresh hfill
  obtain ⟨c₂', heq, hbelow, htree, -⟩ := hlegal.fills hs₁ hb hfresh
  obtain rfl := Except.ok.inj (heq.symm.trans hfill)
  obtain ⟨hgrow, htree⟩ := hgrown hbelow htree
  exact ⟨hfits, hlegal, hgrow, hnext ▸ htree⟩

theorem vetted_connected (ho : o.Vetted) (h : c.Sound none) (ht : c.tree? id = some t)
    (hconn : o.kind.isConnector = true) {p : Point Float}
    (hattach : (c.instantiate o.kind p).1.attachConnector c.nextId id = (c₁, .ok ()))
    (hfill : Document.fill c₁ c.nextId o = .ok c₂) :
    t.kind = .ifBranch ∧ (o.kind = .elseBranch → ∀ k ∈ t.chain, k.isElse = false) ∧ o.Legal ∧
      c.Growth c₂ id ∧ c₂.tree? id = some (t.rechain fun ts =>
        Tree.elseLast (ts ++ [(o.plant c.nextId (c.nextId + 1)).1])) := by
  obtain ⟨⟨hif, hone⟩, hnext, hs₁, b, hb, hfresh, hgrown⟩ :=
    connected_of_attachConnector h ht hconn hattach
  have hlegal := ho hs₁ hb hfresh hfill
  obtain ⟨c₂', heq, hbelow, htree, -⟩ := hlegal.fills hs₁ hb hfresh
  obtain rfl := Except.ok.inj (heq.symm.trans hfill)
  obtain ⟨hgrow, htree⟩ := hgrown hbelow htree (o.kind_plant _ _)
  exact ⟨hif, hone, hlegal, hgrow, hnext ▸ htree⟩

/-! ### Slots -/

theorem legal_of_fillBody {entries : List (Entry Outline)}
    (hvetted : ∀ o ∈ (Content.body entries).children, o.Vetted) (h : c.Sound none)
    (ht : c.tree? id = some t) {s : Slot Tree} (hs : t.slots[index]? = some s)
    (hbody : s.shape = .statement) (hfill : Document.fillBody c ⟨id, index⟩ entries = .ok c') :
    ∀ o ∈ (Content.body entries).children,
      canNest (.slot t.kind .statement) (.block o.kind) = true ∧ o.Legal := by
  induction entries generalizing c t s with
  | nil => exact List.forall_mem_nil _
  | cons e entries ih =>
    cases e with
    | block o =>
      have hchildren : (Content.body (.block o :: entries)).children =
          o :: (Content.body entries).children := rfl
      rw [hchildren] at hvetted ⊢
      obtain ⟨ho, hrest⟩ := List.forall_mem_cons.1 hvetted
      obtain ⟨c₁, k, evicted, c₂, hinto, hchild, hfill⟩ := Document.fillBody_block_eq_ok hfill
      obtain ⟨hfits, hlegal, hgrow, htree⟩ := vetted_nested ho h ht hs
        (fun hv => by cases hbody.symm.trans hv) hinto hchild
      have hbelow := ih (t := t.reslot index _) hrest hgrow.sound htree (Tree.slots_reslot hs)
        ((Content.shape_graft _ _).trans hbody) hfill
      rw [Tree.kind_reslot] at hbelow
      exact List.forall_mem_cons.2 ⟨⟨hbody ▸ hfits, hlegal⟩, hbelow⟩
    | line text =>
      obtain ⟨c₁, n, hpush, hfill⟩ := Document.fillBody_line_eq_ok hfill
      obtain ⟨hgrow, htree⟩ := growth_of_pushLine h ht hs hbody hpush
      have hbelow := ih (t := t.reslot index _) hvetted hgrow.sound htree (Tree.slots_reslot hs)
        ((Content.shape_extended _ _).trans hbody) hfill
      rwa [Tree.kind_reslot] at hbelow

section Slots
variable {face : Face} {kind : Kind} {done : List (Slot Tree)} {given : List (Slot Outline)}
  {name : String}

theorem offered_of_slotFor (h : c.Linked none)
    (ht : c.tree? id = some (.node id face (Template.arranged kind done) []))
    (hn : name ∉ done.map Slot.name) {slot : SlotId} {shape : Shape}
    (hslot : Document.slotFor c id kind name = .ok (slot, shape)) :
    ∃ (index : Nat) (s : Slot Tree), (Template.arranged kind done)[index]? = some s ∧
      slot = ⟨id, index⟩ ∧ s.shape = shape ∧ s.children = [] ∧
        (name, shape) ∈ (Template.slots (β := BlockId) kind).map Slot.signature := by
  obtain ⟨index, s, hs, hname, rfl, rfl⟩ := slotFor_eq_ok h ht hslot
  replace hs : (Template.arranged kind done)[index]? = some s := hs
  obtain ⟨s₀, hs₀, rfl⟩ : ∃ s₀, (Template.slots kind)[index]? = some s₀ ∧ s₀.filled done = s := by
    simpa [Template.arranged] using hs
  have hsig := Slot.signature_filled done s₀
  have hname₀ : s₀.name = name := (congrArg Prod.fst hsig).symm.trans hname
  have hmem := List.mem_of_getElem? hs₀
  refine ⟨index, _, hs, rfl, rfl, ?_, ?_⟩
  · rw [Slot.filled_of_notMem (hname₀ ▸ hn), Slot.children, Template.content_eq hmem]
    cases s₀.shape <;> rfl
  · have hpair : (name, (s₀.filled done).shape) = s₀.signature :=
      (congrArg (·, (s₀.filled done).shape) hname.symm).trans hsig
    rw [Template.signature_eq BlockId Tree, hpair]
    exact List.mem_map_of_mem hmem

section Filled
variable (hn : name ∉ done.map Slot.name) (h : c.Sound none)
  (ht : c.tree? id = some (.node id face (Template.arranged kind done) []))
include hn h ht

theorem fits_body {entries : List (Entry Outline)} (hface : face.kind = kind)
    (hvetted : ∀ o ∈ (Content.body entries).children, o.Vetted)
    (hfill : Document.fillSlots c id kind (⟨name, .body entries⟩ :: given) = .ok c') :
    Outline.Fits kind ⟨name, .body entries⟩ ∧ ∀ o ∈ (Content.body entries).children, o.Legal := by
  obtain ⟨slot, shape, c₁, hslot, htakes, -⟩ := Document.fillSlots_cons_eq_ok hfill
  obtain ⟨index, s, hs, rfl, hshape, -, hoffered⟩ := offered_of_slotFor h.toLinked ht hn hslot
  cases htakes with
  | body hentries =>
    have hbelow := legal_of_fillBody hvetted h ht hs hshape hentries
    have hkind : (Tree.node id face (Template.arranged kind done) []).kind = kind := hface
    rw [hkind] at hbelow
    exact ⟨.content hoffered fun o ho => (hbelow o ho).1, fun o ho => (hbelow o ho).2⟩

theorem fits_literal {literal : String}
    (hfill : Document.fillSlots c id kind (⟨name, .value none literal⟩ :: given) = .ok c') :
    Outline.Fits kind ⟨name, .value none literal⟩ := by
  obtain ⟨slot, shape, c₁, hslot, htakes, -⟩ := Document.fillSlots_cons_eq_ok hfill
  obtain ⟨index, s, hs, -, -, -, hoffered⟩ := offered_of_slotFor h.toLinked ht hn hslot
  cases htakes with
  | literal => exact .content hoffered (List.forall_mem_nil _)
  | nothing => exact .nothing hoffered

theorem fits_block {literal : String} (hface : face.kind = kind) (ho : o.Vetted)
    (hfill : Document.fillSlots c id kind (⟨name, .value (some o) literal⟩ :: given) = .ok c') :
    Outline.Fits kind ⟨name, .value (some o) literal⟩ ∧ o.Legal := by
  obtain ⟨slot, shape, c₃, hslot, htakes, -⟩ := Document.fillSlots_cons_eq_ok hfill
  obtain ⟨index, s, hs, rfl, hshape, hroom, hoffered⟩ := offered_of_slotFor h.toLinked ht hn hslot
  cases htakes with
  | block hset hinto hchild =>
    obtain ⟨hgrow, htree⟩ := growth_of_setLiteral h ht hs hshape hset
    obtain ⟨hfits, hlegal, -, -⟩ := vetted_nested (t := Tree.reslot index _ _) ho hgrow.sound htree
      (Tree.slots_reslot hs) (fun _ => (Content.children_typed _ _).trans hroom) hinto hchild
    have htyped : Slot.shape ⟨s.name, s.content.typed literal⟩ = .value :=
      (Content.shape_typed _ _).trans hshape
    have hkind : (Tree.node id face (Template.arranged kind done) []).kind = kind := hface
    rw [Tree.kind_reslot, hkind, htyped] at hfits
    exact ⟨.content hoffered (List.forall_mem_singleton.2 hfits), hlegal⟩

end Filled

theorem fits_of_fillSlots {g : Slot Outline} (hface : face.kind = kind)
    (hvetted : ∀ o ∈ g.children, o.Vetted) (hn : g.name ∉ done.map Slot.name) (h : c.Sound none)
    (ht : c.tree? id = some (.node id face (Template.arranged kind done) []))
    (hfill : Document.fillSlots c id kind (g :: given) = .ok c') :
    Outline.Fits kind g ∧ ∀ o ∈ g.children, o.Legal := by
  obtain ⟨name, content⟩ := g
  cases content with
  | body entries => exact fits_body hn h ht hface hvetted hfill
  | value child literal =>
    cases child with
    | none => exact ⟨fits_literal hn h ht hfill, List.forall_mem_nil _⟩
    | some o =>
      obtain ⟨hfits, hlegal⟩ := fits_block hn h ht hface (hvetted o (List.mem_singleton_self o)) hfill
      exact ⟨hfits, List.forall_mem_singleton.2 hlegal⟩

theorem legal_of_fillSlots (hface : face.kind = kind) (hvetted : ∀ g ∈ given, ∀ o ∈ g.children, o.Vetted)
    (done : List (Slot Tree)) (hnames : (done.map Slot.name ++ given.map Slot.name).Nodup)
    (h : c.Sound none) (ht : c.tree? id = some (.node id face (Template.arranged kind done) []))
    (hfill : Document.fillSlots c id kind given = .ok c') :
    ∀ g ∈ given, Outline.Fits kind g ∧ ∀ o ∈ g.children, o.Legal := by
  induction given generalizing c done with
  | nil => exact List.forall_mem_nil _
  | cons g given ih =>
    obtain ⟨hg, hrest⟩ := List.forall_mem_cons.1 hvetted
    have hn : g.name ∉ done.map Slot.name := fun hm =>
      (List.nodup_append.1 hnames).2.2 g.name hm g.name (by simp) rfl
    obtain ⟨hfits, hlegal⟩ := fits_of_fillSlots hface hg hn h ht hfill
    obtain ⟨c₁, planted, hname, hgrow, htree, hstep⟩ :=
      fillsSlot hface hfits (fun o ho => (hlegal o ho).fills) hn h ht
    rw [(hstep given).1] at hfill
    exact List.forall_mem_cons.2 ⟨⟨hfits, hlegal⟩,
      ih hrest (done ++ [planted]) (by simpa [hname] using hnames) hgrow.sound htree hfill⟩

end Slots

/-! ### Chains -/

theorem joins_of_fillChain {face : Face} {slots : List (Slot Tree)} {given : List Outline}
    (hvetted : ∀ o ∈ given, o.Vetted) (done : List Tree) (h : c.Sound none)
    (ht : c.tree? id = some (.node id face slots (Tree.elseLast done))) {p : Point Float}
    (hfill : Document.fillChain c id p given = .ok c') :
    Outline.Joins face.kind done given := by
  induction given generalizing c done with
  | nil => exact ⟨fun hne => absurd rfl hne, List.forall_mem_nil _, fun _ _ => List.forall_mem_nil _, .nil,
      List.forall_mem_nil _⟩
  | cons o given ih =>
    obtain ⟨ho, hrest⟩ := List.forall_mem_cons.1 hvetted
    obtain ⟨hconn, c₁, c₂, hattach, hchild, hfill⟩ := Document.fillChain_cons_eq_ok hfill
    obtain ⟨hif, hone, hlegal, hgrow, htree⟩ := vetted_connected ho h ht hconn hattach hchild
    rw [Tree.rechain, Tree.elseLast_append_elseLast] at htree
    have hjoins := ih hrest _ hgrow.sound htree hfill
    refine ⟨fun _ => hif, List.forall_mem_cons.2 ⟨hconn, hjoins.connectors⟩,
      fun k hk => List.forall_mem_cons.2 ⟨?_, fun o' ho' => ?_⟩,
      List.pairwise_cons.2 ⟨fun o' ho' => ?_, hjoins.pairwise⟩,
      List.forall_mem_cons.2 ⟨hlegal, hjoins.legal⟩⟩
    · rintro ⟨hk', he⟩
      have hnot := hone he k (Tree.mem_elseLast.2 hk)
      simp [Tree.isElse, hk'] at hnot
    · exact hjoins.apart k (List.mem_append_left _ hk) o' ho'
    · have hapart := hjoins.apart _ (List.mem_append_right _ (List.mem_singleton_self _)) o' ho'
      rwa [Outline.kind_plant] at hapart

end Canvas

/-! ### Outlines and documents -/

theorem Outline.Distinct.vetted {o : Outline} (h : o.Distinct) : o.Vetted := by
  induction h with
  | @node given slots chain hnames _ _ ihslots ihchain =>
    intro c c' id b hc hb hfresh hfill
    have hkind : (Outline.node given slots chain).kind = given.kind := rfl
    have ht := Canvas.tree?_fresh hc.toLinked hb hfresh
    rw [hkind] at ht
    obtain ⟨c₁, c₂, hcaption, hslots, hchain⟩ := Document.fill_eq_ok hfill
    obtain ⟨c₁', heq, hgrow₁, -, htree₁⟩ := Canvas.exists_caption hc ht
    obtain rfl := Except.ok.inj (heq.symm.trans hcaption)
    rw [← Template.arranged_nil] at htree₁
    have hgiven := Canvas.legal_of_fillSlots given.kind_face ihslots [] (by simpa using hnames)
      hgrow₁.sound htree₁ hslots
    obtain ⟨c₂', heq₂, hgrow₂, -, htree₂⟩ := Canvas.exists_fillSlots given.kind_face
      (fun g hg => (hgiven g hg).1) (fun g hg o ho => ((hgiven g hg).2 o ho).fills) []
      (by simpa using hnames) hgrow₁.sound htree₁
    obtain rfl := Except.ok.inj (heq₂.symm.trans hslots)
    have hjoins := Canvas.joins_of_fillChain ihchain [] hgrow₂.sound htree₂ hchain
    exact .node hnames (fun g hg => (hgiven g hg).1)
      (fun hne => given.kind_face.symm.trans (hjoins.kind_eq hne)) hjoins.connectors hjoins.pairwise
      (fun g hg => (hgiven g hg).2) hjoins.legal

namespace Document
variable {c c' : Canvas}

theorem growth_of_placed {o : Outline} (ho : o.Vetted) (h : c.Sound none) {p : Point Float}
    (hfill : fill (c.instantiate o.kind p).1 c.nextId o = .ok c') :
    o.Legal ∧ (c.instantiate o.kind p).1.Growth c' c.nextId := by
  have hc := Canvas.sound_instantiate h o.kind p
  have hnew : (c.instantiate o.kind p).1.block? c.nextId = some (c.newborn o.kind p) := by
    rw [Canvas.block?_instantiate h.toLinked, if_pos rfl]
  have hlegal := ho hc hnew ⟨rfl, rfl, rfl⟩ hfill
  obtain ⟨c₁, heq, hgrow, -, -⟩ := hlegal.fills hc hnew ⟨rfl, rfl, rfl⟩
  obtain rfl := Except.ok.inj (heq.symm.trans hfill)
  exact ⟨hlegal, hgrow⟩

theorem legal_of_placeAll {os : List Outline} (hd : ∀ o ∈ os, o.Distinct) (h : c.Sound none)
    (hplace : placeAll c os = .ok c') : ∀ o ∈ os, o.kind.isStatement = true ∧ o.Legal := by
  induction os generalizing c with
  | nil => exact List.forall_mem_nil _
  | cons o os ih =>
    obtain ⟨ho, hos⟩ := List.forall_mem_cons.1 hd
    obtain ⟨hstatement, c₁, hfill, hrest⟩ := placeAll_cons_eq_ok hplace
    obtain ⟨hlegal, hgrow⟩ := growth_of_placed ho.vetted h hfill
    exact List.forall_mem_cons.2 ⟨⟨hstatement, hlegal⟩, ih hos hgrow.sound hrest⟩

/-! ### Documents from JSON -/

theorem inSlot_eq_ok {α : Type} {name : String} {kind : Kind} {x : Except DocumentError α} {a : α}
    (h : inSlot name kind x = .ok a) : x = .ok a := by
  cases x with
  | error e => cases h
  | ok a' => exact h

mutual
theorem distinct_outlineOf {o : Outline} : ∀ value : Json, value.Keyed → outlineOf value = .ok o →
    o.Distinct
  | .object members, hkeyed, h => by
    obtain ⟨-, hall⟩ := hkeyed.of_object
    simp only [outlineOf] at h
    obtain ⟨given, -, h⟩ := bind_eq_ok h
    obtain ⟨slots, hslots, h⟩ := bind_eq_ok h
    obtain ⟨chain, hchain, h⟩ := bind_eq_ok h
    obtain rfl := Except.ok.inj h
    obtain ⟨hnames, hbelow⟩ := distinct_slotsOf members hall hslots
    exact .node hnames hbelow (distinct_chainOf members hall hchain)
  | .null, _, h | .bool _, _, h | .int _, _, h | .real _, _, h | .string _, _, h | .array _, _, h => by
    simp [outlineOf] at h
theorem distinct_slotsOf {kind : Kind} {slots : List (Slot Outline)} :
    ∀ members : List (String × Json), (∀ m ∈ members, m.2.Keyed) → slotsOf kind members = .ok slots →
      (slots.map Slot.name).Nodup ∧ ∀ s ∈ slots, ∀ o ∈ s.children, o.Distinct
  | [], _, h => by
    simp only [slotsOf] at h
    obtain rfl := Except.ok.inj h
    exact ⟨List.nodup_nil, List.forall_mem_nil _⟩
  | (key, .object inner) :: rest, hkeyed, h => by
    obtain ⟨hinner, hrest⟩ := List.forall_mem_cons.1 hkeyed
    simp only [slotsOf] at h
    split at h
    · obtain ⟨hasc, hall⟩ := hinner.of_object
      obtain ⟨hnames, hbelow⟩ := distinct_slotMembers inner hall h
      exact ⟨hnames ▸ hasc.nodup, hbelow⟩
    · exact distinct_slotsOf rest hrest h
  | (key, .null) :: rest, hkeyed, h | (key, .bool _) :: rest, hkeyed, h
  | (key, .int _) :: rest, hkeyed, h | (key, .real _) :: rest, hkeyed, h
  | (key, .string _) :: rest, hkeyed, h | (key, .array _) :: rest, hkeyed, h => by
    simp only [slotsOf] at h
    split at h
    · cases h
    · exact distinct_slotsOf rest (List.forall_mem_cons.1 hkeyed).2 h
theorem distinct_slotMembers {kind : Kind} {slots : List (Slot Outline)} :
    ∀ members : List (String × Json), (∀ m ∈ members, m.2.Keyed) → slotMembers kind members = .ok slots →
      slots.map Slot.name = members.map Prod.fst ∧ ∀ s ∈ slots, ∀ o ∈ s.children, o.Distinct
  | [], _, h => by
    simp only [slotMembers] at h
    obtain rfl := Except.ok.inj h
    exact ⟨rfl, List.forall_mem_nil _⟩
  | (name, value) :: rest, hkeyed, h => by
    obtain ⟨hvalue, hrest⟩ := List.forall_mem_cons.1 hkeyed
    simp only [slotMembers] at h
    obtain ⟨content, hcontent, h⟩ := bind_eq_ok h
    obtain ⟨slots, hslots, h⟩ := bind_eq_ok h
    obtain rfl := Except.ok.inj h
    obtain ⟨hnames, hbelow⟩ := distinct_slotMembers rest hrest hslots
    exact ⟨congrArg (name :: ·) hnames, List.forall_mem_cons.2
      ⟨distinct_contentOf value hvalue (inSlot_eq_ok hcontent), hbelow⟩⟩
theorem distinct_contentOf {content : Content Outline} :
    ∀ value : Json, value.Keyed → contentOf value = .ok content → ∀ o ∈ content.children, o.Distinct
  | .array items, hkeyed, h => by
    simp only [contentOf] at h
    obtain ⟨entries, hentries, h⟩ := bind_eq_ok h
    obtain rfl := Except.ok.inj h
    exact distinct_entriesOf items hkeyed.of_array hentries
  | .object members, hkeyed, h => by
    obtain ⟨-, hall⟩ := hkeyed.of_object
    simp only [contentOf] at h
    split at h
    · obtain ⟨given, -, h⟩ := bind_eq_ok h
      obtain ⟨slots, hslots, h⟩ := bind_eq_ok h
      obtain ⟨chain, hchain, h⟩ := bind_eq_ok h
      obtain rfl := Except.ok.inj h
      obtain ⟨hnames, hbelow⟩ := distinct_slotsOf members hall hslots
      exact List.forall_mem_singleton.2 (.node hnames hbelow (distinct_chainOf members hall hchain))
    · obtain ⟨child, hchild, h⟩ := bind_eq_ok h
      obtain rfl := Except.ok.inj h
      exact fun o ho => distinct_childOf members hall hchild o (Option.mem_toList.1 ho)
  | .null, _, h | .bool _, _, h | .int _, _, h | .real _, _, h | .string _, _, h => by
    simp only [contentOf] at h
    obtain rfl := Except.ok.inj h
    exact List.forall_mem_nil _
theorem distinct_entriesOf {entries : List (Entry Outline)} :
    ∀ items : List Json, (∀ item ∈ items, item.Keyed) → entriesOf items = .ok entries →
      ∀ o ∈ (Content.body entries).children, o.Distinct
  | [], _, h => by
    simp only [entriesOf] at h
    obtain rfl := Except.ok.inj h
    exact List.forall_mem_nil _
  | .object members :: items, hkeyed, h => by
    obtain ⟨hfirst, hrest⟩ := List.forall_mem_cons.1 hkeyed
    simp only [entriesOf] at h
    obtain ⟨block, hblock, h⟩ := bind_eq_ok h
    obtain ⟨entries, hentries, h⟩ := bind_eq_ok h
    obtain rfl := Except.ok.inj h
    exact List.forall_mem_cons.2
      ⟨distinct_outlineOf (.object members) hfirst hblock, distinct_entriesOf items hrest hentries⟩
  | .null :: items, hkeyed, h | .bool _ :: items, hkeyed, h | .int _ :: items, hkeyed, h
  | .real _ :: items, hkeyed, h | .string _ :: items, hkeyed, h | .array _ :: items, hkeyed, h => by
    simp only [entriesOf] at h
    obtain ⟨entries, hentries, h⟩ := bind_eq_ok h
    obtain rfl := Except.ok.inj h
    have hbelow := distinct_entriesOf items (List.forall_mem_cons.1 hkeyed).2 hentries
    exact hbelow
theorem distinct_childOf {child : Option Outline} :
    ∀ members : List (String × Json), (∀ m ∈ members, m.2.Keyed) → childOf members = .ok child →
      ∀ o ∈ child, o.Distinct
  | [], _, h => by
    simp only [childOf] at h
    obtain rfl := Except.ok.inj h
    exact fun o ho => by cases ho
  | (key, .object members) :: rest, hkeyed, h => by
    obtain ⟨hfirst, hrest⟩ := List.forall_mem_cons.1 hkeyed
    simp only [childOf] at h
    split at h
    · obtain ⟨block, hblock, h⟩ := bind_eq_ok h
      obtain rfl := Except.ok.inj h
      rintro o ⟨⟩
      exact distinct_outlineOf (.object members) hfirst hblock
    · exact distinct_childOf rest hrest h
  | (key, .null) :: rest, hkeyed, h => by
    simp only [childOf] at h
    split at h
    · obtain rfl := Except.ok.inj h
      exact fun o ho => by cases ho
    · exact distinct_childOf rest (List.forall_mem_cons.1 hkeyed).2 h
  | (key, .bool _) :: rest, hkeyed, h | (key, .int _) :: rest, hkeyed, h
  | (key, .real _) :: rest, hkeyed, h | (key, .string _) :: rest, hkeyed, h
  | (key, .array _) :: rest, hkeyed, h => by
    simp only [childOf] at h
    split at h
    · cases h
    · exact distinct_childOf rest (List.forall_mem_cons.1 hkeyed).2 h
theorem distinct_chainOf {kind : Kind} {chain : List Outline} :
    ∀ members : List (String × Json), (∀ m ∈ members, m.2.Keyed) → chainOf kind members = .ok chain →
      ∀ o ∈ chain, o.Distinct
  | [], _, h => by
    simp only [chainOf] at h
    obtain rfl := Except.ok.inj h
    exact List.forall_mem_nil _
  | (key, .array items) :: rest, hkeyed, h => by
    obtain ⟨hfirst, hrest⟩ := List.forall_mem_cons.1 hkeyed
    simp only [chainOf] at h
    split at h
    · exact distinct_connectorsOf items hfirst.of_array h
    · exact distinct_chainOf rest hrest h
  | (key, .null) :: rest, hkeyed, h => by
    simp only [chainOf] at h
    split at h
    · obtain rfl := Except.ok.inj h
      exact List.forall_mem_nil _
    · exact distinct_chainOf rest (List.forall_mem_cons.1 hkeyed).2 h
  | (key, .bool _) :: rest, hkeyed, h | (key, .int _) :: rest, hkeyed, h
  | (key, .real _) :: rest, hkeyed, h | (key, .string _) :: rest, hkeyed, h
  | (key, .object _) :: rest, hkeyed, h => by
    simp only [chainOf] at h
    split at h
    · cases h
    · exact distinct_chainOf rest (List.forall_mem_cons.1 hkeyed).2 h
theorem distinct_connectorsOf {chain : List Outline} :
    ∀ items : List Json, (∀ item ∈ items, item.Keyed) → connectorsOf items = .ok chain →
      ∀ o ∈ chain, o.Distinct
  | [], _, h => by
    simp only [connectorsOf] at h
    obtain rfl := Except.ok.inj h
    exact List.forall_mem_nil _
  | item :: items, hkeyed, h => by
    obtain ⟨hfirst, hrest⟩ := List.forall_mem_cons.1 hkeyed
    simp only [connectorsOf] at h
    obtain ⟨connector, hconnector, h⟩ := bind_eq_ok h
    obtain ⟨connectors, hconnectors, h⟩ := bind_eq_ok h
    obtain rfl := Except.ok.inj h
    exact List.forall_mem_cons.2
      ⟨distinct_outlineOf item hfirst hconnector, distinct_connectorsOf items hrest hconnectors⟩
end

theorem distinct_blocksOf {items : List Json} (hkeyed : ∀ item ∈ items, item.Keyed) {index : Nat}
    {blocks : List Outline} (h : blocksOf index items = .ok blocks) : ∀ o ∈ blocks, o.Distinct := by
  induction items generalizing index blocks with
  | nil =>
    obtain rfl := Except.ok.inj h
    exact List.forall_mem_nil _
  | cons item items ih =>
    obtain ⟨hfirst, hrest⟩ := List.forall_mem_cons.1 hkeyed
    cases hitem : outlineOf item with
    | error e =>
      simp only [blocksOf, hitem] at h
      cases h
    | ok block =>
      simp only [blocksOf, hitem] at h
      obtain ⟨_, hblock, h⟩ := bind_eq_ok h
      obtain ⟨blocks, hblocks, h⟩ := bind_eq_ok h
      obtain rfl := Except.ok.inj h
      obtain rfl := Except.ok.inj hblock
      exact List.forall_mem_cons.2 ⟨distinct_outlineOf item hfirst hitem, ih hrest hblocks⟩

theorem ofJson_eq_ok {value : Json} {d : Document} (h : ofJson value = .ok d) :
    ∃ members items, value = .object members ∧ Json.find? "blocks" members = some (.array items) ∧
      blocksOf 0 items = .ok d.blocks := by
  cases value with
  | object members =>
    simp only [ofJson, bind, Except.bind] at h
    -- whatever is said of the version and of the rectangles, the blocks are read in the same way
    repeat' split at h
    all_goals cases h
    all_goals exact ⟨members, _, rfl, ‹_›, ‹_›⟩
  | _ => cases h

theorem distinct_ofJson {value : Json} (hkeyed : value.Keyed) {d : Document} (h : ofJson value = .ok d) :
    ∀ o ∈ d.blocks, o.Distinct := by
  obtain ⟨members, items, rfl, hfind, hblocks⟩ := ofJson_eq_ok h
  obtain ⟨m, hm, he⟩ := Option.map_eq_some_iff.1 hfind
  have hitems := hkeyed.of_object.2 m (List.mem_of_find?_eq_some hm)
  rw [he] at hitems
  exact distinct_blocksOf hitems.of_array hblocks

end Document
end BlockCanvas
