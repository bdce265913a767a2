import BlockCanvas.Proofs.Growth
import BlockCanvas.Proofs.Planting
import BlockCanvas.Proofs.Reachable

/-!
Building from a legal document. Each edit of the builder succeeds and changes the tree of the block it
fills in as `Outline.plant` says, and nothing else; by induction on the document the canvas that is built
is the one that was planted.
-/
namespace BlockCanvas

namespace Content
variable {β : Type}

def typed (text : String) : Content β → Content β
  | .value child _ => .value child text
  | .body entries => .body entries

def extended (more : List (Entry β)) : Content β → Content β
  | .value child literal => .value child literal
  | .body entries => .body (entries ++ more)

theorem exists_body {content : Content β} (h : content.shape = .statement) :
    ∃ entries, content = .body entries := by
  cases content with
  | value child literal => cases h
  | body entries => exact ⟨entries, rfl⟩

theorem shape_typed (text : String) (content : Content β) :
    (content.typed text).shape = content.shape := by
  cases content <;> rfl

theorem shape_extended (more : List (Entry β)) (content : Content β) :
    (content.extended more).shape = content.shape := by
  cases content <;> rfl

end Content

namespace Tree
variable {t : Tree} {index : Nat}

theorem reslot_reslot (f g : Content Tree → Content Tree) :
    (t.reslot index f).reslot index g = t.reslot index fun content => g (f content) := by
  obtain ⟨id, face, slots, chain⟩ := t
  simp only [reslot, List.modify_modify_eq]
  rfl

theorem slots_reslot {f : Content Tree → Content Tree} {s : Slot Tree}
    (hs : t.slots[index]? = some s) :
    (t.reslot index f).slots[index]? = some { s with content := f s.content } := by
  obtain ⟨id, face, slots, chain⟩ := t
  have hs' : slots[index]? = some s := hs
  simp [reslot, Tree.slots, hs']

theorem reslot_congr {f g : Content Tree → Content Tree} {s : Slot Tree}
    (hs : t.slots[index]? = some s) (h : f s.content = g s.content) :
    t.reslot index f = t.reslot index g := by
  obtain ⟨id, face, slots, chain⟩ := t
  simp only [reslot]
  congr 1
  refine List.ext_getElem? fun i => ?_
  simp only [List.getElem?_modify]
  by_cases hi : index = i
  · subst hi
    have hs' : slots[index]? = some s := hs
    simp [hs', h]
  · simp [hi]

theorem reslot_self {f : Content Tree → Content Tree} {s : Slot Tree}
    (hs : t.slots[index]? = some s) (h : f s.content = s.content) : t.reslot index f = t := by
  rw [reslot_congr (g := fun content => content) hs h]
  obtain ⟨id, face, slots, chain⟩ := t
  simp only [reslot]
  congr 1
  refine List.ext_getElem? fun i => ?_
  rw [List.getElem?_modify]
  cases slots[i]? <;> simp

theorem reslot_arranged {id : BlockId} {face : Face} {kind : Kind} {done : List (Slot Tree)}
    {g s : Slot Tree} {f : Content Tree → Content Tree}
    (hs : (Template.slots (β := Tree) kind)[index]? = some s) (hg : g.signature = s.signature)
    (hn : g.name ∉ done.map Slot.name) (hf : f s.content = g.content) :
    (node id face (Template.arranged kind done) []).reslot index f =
      .node id face (Template.arranged kind (done ++ [g])) [] := by
  have hname : g.name = s.name := congrArg Prod.fst hg
  have hi := Template.getElem?_arranged hs (hname ▸ hn)
  rw [Template.arranged_append hs hg hn]
  exact reslot_congr (g := fun _ => g.content) hi hf

@[simp]
theorem kind_reslot (f : Content Tree → Content Tree) : (t.reslot index f).kind = t.kind := by
  cases t
  rfl

end Tree

namespace Canvas
variable {c : Canvas} {id : BlockId} {t : Tree} {index : Nat}

/-! ### The edits of the builder -/

theorem slot_of_tree? (h : c.Linked none) {b : Block} (hb : c.block? id = some b)
    (ht : c.tree? id = some t) {s : Slot Tree} (hs : t.slots[index]? = some s) :
    b.slots[index]? = some (s.filterMap fun k => some k.id) := by
  rw [(block_of_tree? h hb ht).2.1, List.getElem?_map, hs, Option.map_some]

theorem place_of_tree? (h : c.Linked none) (ht : c.tree? id = some t) {s : Slot Tree}
    (hs : t.slots[index]? = some s) : c.place ⟨id, index⟩ = .ok (.slot t.kind s.shape) := by
  obtain ⟨b, hb, -⟩ := exists_block_of_tree? h ht
  have hkind : b.kind = t.kind := congrArg Face.kind (block_of_tree? h hb ht).1
  refine place_eq_ok_iff.2 ⟨t.kind, _, by rw [kind?, hb, Option.map_some, hkind],
    (slot?_eq hb index).trans (slot_of_tree? h hb ht hs), ?_⟩
  exact congrArg (Place.slot t.kind) (Content.shape_filterMap _ s.content).symm

theorem exists_editFace (h : c.Sound none) (ht : c.tree? id = some t) {f : Face → Face}
    (hkind : ∀ face, (f face).kind = face.kind)
    (hop : ∀ face, face.operator ≠ none → (f face).operator ≠ none) :
    ∃ c₁, c.editFace id f = (c₁, .ok ()) ∧ c.Growth c₁ id ∧ c₁.nextId = c.nextId ∧
      c₁.tree? id = some (t.reface f) := by
  obtain ⟨b, hb, rfl⟩ := exists_block_of_tree? h.toLinked ht
  let g : Block → Block := fun b => { b with toFace := f b.toFace }
  have heq : c.editFace id f = ((c.modify id g).commit (.attributeEdited id), .ok ()) := by
    rw [editFace, hb]
  have hstep := h.editFace id hkind hop
  rw [heq] at hstep
  have hgrow := Growth.modify (f := g) (fun _ => rfl) (fun _ => rfl) rfl hstep.of_ok.1
  have hb' : ((c.modify id g).commit (.attributeEdited id)).block? id = some (g b) :=
    (block?_modify_self (f := g) (fun _ => rfl) id).trans (by rw [hb, Option.map_some])
  refine ⟨_, heq, hgrow, rfl, ?_⟩
  have hslots : (g b).slots.map (Slot.filterMap (Canvas.tree? _)) = _ :=
    Growth.slots_eq (b := b) h.toLinked hgrow hb
  have hchain : (g b).chain.filterMap (Canvas.tree? _) = _ :=
    Growth.chain_eq (b := b) h.toLinked hgrow hb
  rw [tree?_eq hgrow.sound.toLinked, hb', Option.map_some, hslots, hchain, id_of_block? hb']
  rfl

theorem exists_setLiteral (h : c.Sound none) (ht : c.tree? id = some t) {s : Slot Tree}
    (hs : t.slots[index]? = some s) (hv : s.shape = .value) (text : String) :
    ∃ c₁, c.setLiteral ⟨id, index⟩ text = (c₁, .ok ()) ∧ c.Growth c₁ id ∧ c₁.nextId = c.nextId ∧
      c₁.tree? id = some (t.reslot index (Content.typed text)) := by
  obtain ⟨b, hb, -⟩ := exists_block_of_tree? h.toLinked ht
  obtain ⟨name, child, literal, hsb⟩ :
      ∃ name child literal, b.slots[index]? = some ⟨name, .value child literal⟩ := by
    rw [slot_of_tree? h.toLinked hb ht hs]
    obtain ⟨name, content⟩ := s
    cases content with
    | value child literal => exact ⟨_, _, _, rfl⟩
    | body entries => cases hv
  let g : Block → Block := Block.reslot index fun _ => .value child text
  have heq : c.setLiteral ⟨id, index⟩ text =
      ((c.modify id g).commit (.literalEdited ⟨id, index⟩), .ok ()) := by
    rw [setLiteral, slot?_eq hb, hsb]
    rfl
  have hstep := h.setLiteral ⟨id, index⟩ text
  rw [heq] at hstep
  have hgrow := Growth.modify (f := g) (fun _ => rfl) (fun _ => rfl) rfl hstep.of_ok.1
  have hself : ((c.modify id g).commit (.literalEdited ⟨id, index⟩)).block? id =
      some (b.reslot index fun _ => .value child text) :=
    (block?_modify_self (f := g) (fun _ => rfl) id).trans (by rw [hb, Option.map_some])
  refine ⟨_, heq, hgrow, rfl, Growth.tree?_reslot h.toLinked hgrow hb hself (fun s' hs' => ?_) ht⟩
  obtain rfl := Option.some.inj (hsb.symm.trans hs')
  rfl

theorem exists_pushLine (h : c.Sound none) (ht : c.tree? id = some t) {s : Slot Tree}
    (hs : t.slots[index]? = some s) (hbody : s.shape = .statement)
    (hfits : canNest (.slot t.kind .statement) .typed = true) (text : String) :
    ∃ c₁ n, c.pushLine ⟨id, index⟩ text = (c₁, .ok n) ∧ c.Growth c₁ id ∧ c₁.nextId = c.nextId ∧
      c₁.tree? id = some (t.reslot index (Content.extended [.line text])) := by
  obtain ⟨b, hb, -⟩ := exists_block_of_tree? h.toLinked ht
  obtain ⟨name, entries, hsb⟩ : ∃ name entries, b.slots[index]? = some ⟨name, .body entries⟩ := by
    rw [slot_of_tree? h.toLinked hb ht hs]
    obtain ⟨name, content⟩ := s
    obtain ⟨entries, rfl⟩ := Content.exists_body hbody
    exact ⟨_, _, rfl⟩
  let g : Block → Block := Block.reslot index fun _ => .body (entries ++ [.line text])
  have hslot : c.slot? ⟨id, index⟩ = some ⟨name, .body entries⟩ := (slot?_eq hb index).trans hsb
  have hplace : c.place ⟨id, index⟩ = .ok (.slot t.kind .statement) :=
    hbody ▸ place_of_tree? h.toLinked ht hs
  have heq : c.pushLine ⟨id, index⟩ text =
      ((c.modify id g).commit (.literalEdited ⟨id, index⟩), .ok entries.length) := by
    simp only [pushLine, hplace, hfits, Bool.not_true, Bool.false_eq_true, if_false, hslot,
      Option.map_some]
    rfl
  have hstep := h.pushLine ⟨id, index⟩ text
  rw [heq] at hstep
  have hgrow := Growth.modify (f := g) (fun _ => rfl) (fun _ => rfl) rfl hstep.of_ok.1
  have hself : ((c.modify id g).commit (.literalEdited ⟨id, index⟩)).block? id =
      some (b.reslot index fun _ => .body (entries ++ [.line text])) :=
    (block?_modify_self (f := g) (fun _ => rfl) id).trans (by rw [hb, Option.map_some])
  refine ⟨_, _, heq, hgrow, rfl, Growth.tree?_reslot h.toLinked hgrow hb hself (fun s' hs' => ?_) ht⟩
  obtain rfl := Option.some.inj (hsb.symm.trans hs')
  simp [Content.filterMap, Content.extended, List.filterMap_append]

/-! ### Blocks that are filled in -/

variable {kind : Kind}

/-- A fresh block in a slot: however it grows, its tree is grafted into the one of its host. -/
theorem exists_nested (h : c.Sound none) (ht : c.tree? id = some t) {s : Slot Tree}
    (hs : t.slots[index]? = some s) (hfits : canNest (.slot t.kind s.shape) (.block kind) = true)
    (hroom : s.shape = .value → s.children = []) :
    ∃ c₁ k, c.instantiateInto kind ⟨id, index⟩ = (c₁, .ok (c.nextId, none)) ∧ c₁.Sound none ∧
      c₁.nextId = c.nextId + 1 ∧ c₁.block? c.nextId = some k ∧ k.Fresh kind ∧
      ∀ {c₂ : Canvas} {tk : Tree}, c₁.Growth c₂ c.nextId → c₂.tree? c.nextId = some tk →
        c.Growth c₂ id ∧ c₂.tree? id = some (t.reslot index (Content.graft tk)) := by
  obtain ⟨b, hb, -⟩ := exists_block_of_tree? h.toLinked ht
  have hkind : b.kind = t.kind := congrArg Face.kind (block_of_tree? h.toLinked hb ht).1
  have hsb := slot_of_tree? h.toLinked hb ht hs
  have hshape : (s.filterMap fun k => some k.id).shape = s.shape := Content.shape_filterMap _ s.content
  obtain ⟨c₁, k, heq, hgrow, hnext, hk, hfresh, hhost⟩ :=
    exists_instantiateInto h ⟨id, index⟩ hb hsb (by rw [hshape, hkind]; exact hfits)
      fun hv => by rw [Slot.children_filterMap, hroom (hshape ▸ hv), List.filterMap_nil]
  refine ⟨c₁, k, heq, hgrow.sound, hnext, hk, hfresh, fun {c₂ tk} hbelow htree => ?_⟩
  have hid := Growth.lt_nextId h.toLinked hb
  have hall := hgrow.below_fresh hid (hnext ▸ Nat.lt_succ_self _) hbelow
  have hself : c₂.block? id = some (b.reslot index (Content.link c.nextId)) := by
    rw [hbelow.others id (hnext ▸ Nat.lt_succ_of_lt hid) (Nat.ne_of_lt hid), hhost]
  refine ⟨hall, Growth.tree?_reslot h.toLinked hall hb hself (fun s' _ => ?_) ht⟩
  rw [Content.link_eq_graft]
  exact Content.filterMap_graft htree s'.content

theorem elseLast_filterMap {c₁ : Canvas} {f : BlockId → Option Tree} {ks : List BlockId}
    (h : ∀ k ∈ ks, ∀ t, f k = some t → c₁.isElse k = t.isElse) :
    (c₁.elseLast ks).filterMap f = Tree.elseLast (ks.filterMap f) := by
  have hfilter : ∀ (p : BlockId → Bool) (q : Tree → Bool),
      (∀ k ∈ ks, ∀ t, f k = some t → p k = q t) →
        (ks.filter p).filterMap f = (ks.filterMap f).filter q := by
    intro p q hpq
    rw [List.filterMap_filter, List.filter_filterMap]
    refine List.filterMap_congr fun k hk => ?_
    cases hf : f k with
    | none => simp
    | some t => by_cases hq : q t = true <;> simp [hpq k hk t hf, Option.filter, hq]
  rw [elseLast, List.filterMap_append, Tree.elseLast, hfilter c₁.isElse Tree.isElse h]
  congr 1
  exact hfilter _ _ fun k hk t ht => congrArg (!·) (h k hk t ht)

theorem isElse_of_tree? (h : c.Linked none) {k : BlockId} (ht : c.tree? k = some t) :
    c.isElse k = t.isElse := by
  obtain ⟨b, hb, rfl⟩ := exists_block_of_tree? h ht
  rw [isElse, kind?, hb, Option.map_some]
  rfl

theorem exists_connected (h : c.Sound none) (ht : c.tree? id = some t) (hif : t.kind = .ifBranch)
    (hconn : kind.isConnector = true) (hone : kind = .elseBranch → ∀ k ∈ t.chain, k.isElse = false)
    (p : Point Float) :
    ∃ c₁ k, (c.instantiate kind p).1.attachConnector c.nextId id = (c₁, .ok ()) ∧ c₁.Sound none ∧
      c₁.nextId = c.nextId + 1 ∧ c₁.block? c.nextId = some k ∧ k.Fresh kind ∧
      ∀ {c₂ : Canvas} {tk : Tree}, c₁.Growth c₂ c.nextId → c₂.tree? c.nextId = some tk →
        tk.kind = kind →
          c.Growth c₂ id ∧ c₂.tree? id = some (t.rechain fun ts => Tree.elseLast (ts ++ [tk])) := by
  obtain ⟨b, hb, rfl⟩ := exists_block_of_tree? h.toLinked ht
  have hlive : ∀ k ∈ b.chain, ∃ t, c.tree? k = some t := by
    intro k hk
    obtain ⟨t, ht, -⟩ := exists_tree?_of_owned h.toLinked hb (Block.mem_owned.2 (Or.inr hk))
    exact ⟨t, ht⟩
  obtain ⟨c₁, k, heq, hgrow, hnext, hknew, hfresh, hhead⟩ :=
    exists_attachConnector h hb hif hconn (fun he k hk => by
      obtain ⟨t, ht⟩ := hlive k hk
      rw [isElse_of_tree? h.toLinked ht]
      exact hone he t (List.mem_filterMap.2 ⟨k, hk, ht⟩)) p
  refine ⟨c₁, k, heq, hgrow.sound, hnext, hknew, hfresh, fun {c₂ tk} hbelow htree hkind => ?_⟩
  have hid := Growth.lt_nextId h.toLinked hb
  have hall := hgrow.below_fresh hid (hnext ▸ Nat.lt_succ_self _) hbelow
  have hself : c₂.block? id = some { b with chain := c₁.elseLast (b.chain ++ [c.nextId]) } := by
    rw [hbelow.others id (hnext ▸ Nat.lt_succ_of_lt hid) (Nat.ne_of_lt hid), hhead]
  refine ⟨hall, ?_⟩
  have hslots := Growth.slots_eq h.toLinked hall hb
  have hchain := Growth.chain_eq h.toLinked hall hb
  have hsort : (c₁.elseLast (b.chain ++ [c.nextId])).filterMap c₂.tree? =
      Tree.elseLast (b.chain.filterMap c.tree? ++ [tk]) := by
    rw [elseLast_filterMap fun k hk t ht => ?_, List.filterMap_append, hchain]
    · simp [htree]
    · rcases List.mem_append.1 hk with hk | hk
      · -- an older connector is the same before and after the fresh one is filled in
        obtain ⟨t', ht'⟩ := hlive k hk
        have hsame := Growth.tree?_of_owned h.toLinked hall hb (Block.mem_owned.2 (Or.inr hk))
        obtain rfl : t' = t := Option.some.inj (ht'.symm.trans (hsame.symm.trans ht))
        rw [← isElse_of_tree? hgrow.sound.toLinked
          ((Growth.tree?_of_owned h.toLinked hgrow hb (Block.mem_owned.2 (Or.inr hk))).trans ht')]
      · obtain rfl := List.mem_singleton.1 hk
        obtain rfl := Option.some.inj (htree.symm.trans ht)
        have hk' : k.kind = kind := (congrArg Face.kind hfresh.face).trans (Template.kind_face kind)
        rw [isElse, kind?, hknew, Option.map_some, hk', Tree.isElse, hkind]
        rfl
  rw [tree?_eq hall.sound.toLinked, hself, Option.map_some, hslots, hsort, id_of_block? hself]
  rfl

end Canvas

def Outline.Fills (o : Outline) : Prop :=
  ∀ {c : Canvas} {id : BlockId} {b : Block}, c.Sound none → c.block? id = some b → b.Fresh o.kind →
    ∃ c', Document.fill c id o = .ok c' ∧ c.Growth c' id ∧
      c'.tree? id = some (o.plant id c.nextId).1 ∧ c'.nextId = (o.plant id c.nextId).2

namespace Canvas
variable {c : Canvas} {id : BlockId} {t : Tree} {index : Nat} {o : Outline}

theorem exists_nest (ho : o.Fills) (h : c.Sound none) (ht : c.tree? id = some t) {s : Slot Tree}
    (hs : t.slots[index]? = some s) (hfits : canNest (.slot t.kind s.shape) (.block o.kind) = true)
    (hroom : s.shape = .value → s.children = []) :
    ∃ c₁ c₂, c.instantiateInto o.kind ⟨id, index⟩ = (c₁, .ok (c.nextId, none)) ∧
      Document.fill c₁ c.nextId o = .ok c₂ ∧ c.Growth c₂ id ∧
      c₂.nextId = (o.plant c.nextId (c.nextId + 1)).2 ∧
      c₂.tree? id = some (t.reslot index (Content.graft (o.plant c.nextId (c.nextId + 1)).1)) := by
  obtain ⟨c₁, k, heq, hs₁, hnext, hk, hfresh, hgrown⟩ := exists_nested h ht hs hfits hroom
  obtain ⟨c₂, hfill, hbelow, htree, hnext₂⟩ := ho hs₁ hk hfresh
  rw [hnext] at htree hnext₂
  obtain ⟨hall, htree'⟩ := hgrown hbelow htree
  exact ⟨c₁, c₂, heq, hfill, hall, hnext₂, htree'⟩

theorem exists_connect (ho : o.Fills) (h : c.Sound none) (ht : c.tree? id = some t)
    (hif : t.kind = .ifBranch) (hconn : o.kind.isConnector = true)
    (hone : o.kind = .elseBranch → ∀ k ∈ t.chain, k.isElse = false) (p : Point Float) :
    ∃ c₁ c₂, (c.instantiate o.kind p).1.attachConnector c.nextId id = (c₁, .ok ()) ∧
      Document.fill c₁ c.nextId o = .ok c₂ ∧ c.Growth c₂ id ∧
      c₂.nextId = (o.plant c.nextId (c.nextId + 1)).2 ∧
      c₂.tree? id = some (t.rechain fun ts =>
        Tree.elseLast (ts ++ [(o.plant c.nextId (c.nextId + 1)).1])) := by
  obtain ⟨c₁, k, heq, hs₁, hnext, hk, hfresh, hgrown⟩ := exists_connected h ht hif hconn hone p
  obtain ⟨c₂, hfill, hbelow, htree, hnext₂⟩ := ho hs₁ hk hfresh
  rw [hnext] at htree hnext₂
  obtain ⟨hall, htree'⟩ := hgrown hbelow htree (o.kind_plant _ _)
  exact ⟨c₁, c₂, heq, hfill, hall, hnext₂, htree'⟩

/-! ### Lists of things that are filled in -/

theorem exists_fillBody (entries : List (Entry Outline))
    (hfills : ∀ o ∈ (Content.body entries).children, o.Fills)
    (hfits : ∀ o ∈ (Content.body entries).children,
      canNest (.slot t.kind .statement) (.block o.kind) = true)
    (hlines : canNest (.slot t.kind .statement) .typed = true) (h : c.Sound none)
    (ht : c.tree? id = some t) {s : Slot Tree} (hs : t.slots[index]? = some s)
    (hbody : s.shape = .statement) :
    ∃ c', Document.fillBody c ⟨id, index⟩ entries = .ok c' ∧ c.Growth c' id ∧
      c'.nextId = (Outline.plantBody c.nextId entries).2 ∧
      c'.tree? id =
        some (t.reslot index (Content.extended (Outline.plantBody c.nextId entries).1)) := by
  obtain ⟨name, content⟩ := s
  obtain ⟨es, rfl⟩ := Content.exists_body hbody
  induction entries generalizing c t es with
  | nil =>
    refine ⟨c, rfl, .refl h id, rfl, ht.trans (congrArg some (Tree.reslot_self hs ?_).symm)⟩
    simp [Content.extended, Outline.plantBody]
  | cons e entries ih =>
    cases e with
    | block o =>
      have hm : ∀ o' ∈ (Content.body entries).children,
          o' ∈ (Content.body (.block o :: entries)).children := fun o' ho' => by
        simpa [Content.children] using Or.inr ho'
      have ho : o ∈ (Content.body (.block o :: entries)).children := by simp [Content.children]
      -- the first entry is filled in, and the rest where the body has one entry more
      obtain ⟨c₁, c₂, hnest, hfill, hgrow, hnext, htree⟩ :=
        exists_nest (hfills o ho) h ht hs (hfits o ho) fun hv => by cases hv
      obtain ⟨c', hrest, hgrow', hnext', htree'⟩ :=
        ih (t := t.reslot index _) (fun o' ho' => hfills o' (hm o' ho'))
          (fun o' ho' => by simpa using hfits o' (hm o' ho')) (by simpa using hlines) hgrow.sound htree
          _ (Tree.slots_reslot hs) rfl
      refine ⟨c', ?_, hgrow.trans hgrow', ?_, ?_⟩
      · simp only [Document.fillBody, hnest, Document.demand, bind, Except.bind, hfill, hrest]
      · rw [hnext', hnext, Outline.plantBody]
      · rw [htree', Tree.reslot_reslot, hnext, Outline.plantBody]
        exact congrArg some (Tree.reslot_congr hs (by simp [Content.graft, Content.extended]))
    | line text =>
      obtain ⟨c₁, n, hpush, hgrow, hnext, htree⟩ := exists_pushLine h ht hs rfl hlines text
      obtain ⟨c', hrest, hgrow', hnext', htree'⟩ :=
        ih (t := t.reslot index _) hfills (fun o' ho' => by simpa using hfits o' ho')
          (by simpa using hlines) hgrow.sound htree _ (Tree.slots_reslot hs) rfl
      refine ⟨c', ?_, hgrow.trans hgrow', ?_, ?_⟩
      · simp only [Document.fillBody, hpush, Document.demand, bind, Except.bind, hrest]
      · rw [hnext', hnext, Outline.plantBody]
      · rw [htree', Tree.reslot_reslot, hnext, Outline.plantBody]
        exact congrArg some (Tree.reslot_congr hs (by simp [Content.extended]))

theorem slotFor_eq (h : c.Linked none) {face : Face} {kind : Kind} {done : List (Slot Tree)}
    (ht : c.tree? id = some (.node id face (Template.arranged kind done) [])) {s : Slot Tree}
    (hs : (Template.slots (β := Tree) kind)[index]? = some s) :
    Document.slotFor c id kind s.name = .ok (⟨id, index⟩, s.shape) := by
  obtain ⟨b, hb, -⟩ := exists_block_of_tree? h ht
  have hslot : ∀ {i : Nat} {s : Slot Tree}, (Template.slots (β := Tree) kind)[i]? = some s →
      b.slots[i]? = some ((s.filled done).filterMap fun k => some k.id) := fun hs =>
    slot_of_tree? h hb ht (by simp [Tree.slots, Template.arranged, hs])
  have hlen : b.slots.length = (Template.slots (β := Tree) kind).length := by
    simp [(block_of_tree? h hb ht).2.1, Tree.slots, Template.arranged]
  have hindex : b.slotIndex? s.name = some index := by
    refine List.findIdx?_eq_some_iff_getElem.2 ⟨?_, ?_, fun j hj => ?_⟩
    · rw [hlen]
      exact (List.getElem?_eq_some_iff.1 hs).1
    · obtain ⟨_, he⟩ := List.getElem?_eq_some_iff.1 (hslot hs)
      simp [he, Slot.filterMap, Slot.filled]
    · have hlt : j < (Template.slots (β := Tree) kind).length :=
        Nat.lt_trans hj (List.getElem?_eq_some_iff.1 hs).1
      have hs' := List.getElem?_eq_getElem hlt
      obtain ⟨_, he⟩ := List.getElem?_eq_some_iff.1 (hslot hs')
      have hne : (Template.slots (β := Tree) kind)[j].name ≠ s.name := fun hname =>
        Nat.ne_of_lt hj (Template.index_unique hs' hs hname)
      simpa [he, Slot.filterMap, Slot.filled] using hne
  have hshape : ((s.filled done).filterMap fun k => some k.id).shape = s.shape := by
    have he := (Slot.signature_filterMap (fun k : Tree => some k.id) _).trans
      (Slot.signature_filled done s)
    exact congrArg Prod.snd he
  rw [Document.slotFor, slotNamed?, hb, Option.bind_some, hindex, Option.map_some]
  simp only [slot?_eq hb, hslot hs, hshape]

section Slots
variable {face : Face} {kind : Kind} {done : List (Slot Tree)} {s : Slot Tree}

def FillsSlot (c : Canvas) (id : BlockId) (face : Face) (kind : Kind) (done : List (Slot Tree))
    (g : Slot Outline) : Prop :=
  ∃ c₁ planted, planted.name = g.name ∧ c.Growth c₁ id ∧
    c₁.tree? id = some (.node id face (Template.arranged kind (done ++ [planted])) []) ∧
    ∀ given, Document.fillSlots c id kind (g :: given) = Document.fillSlots c₁ id kind given ∧
      Outline.plantSlots c.nextId (g :: given) =
        (planted :: (Outline.plantSlots c₁.nextId given).1,
          (Outline.plantSlots c₁.nextId given).2)

theorem reslot_planted (hs : (Template.slots (β := Tree) kind)[index]? = some s)
    (hn : s.name ∉ done.map Slot.name) (planted : Content Tree) (hshape : planted.shape = s.shape)
    {f : Content Tree → Content Tree} (hf : f s.content = planted) :
    (Tree.node id face (Template.arranged kind done) []).reslot index f =
      .node id face (Template.arranged kind (done ++ [⟨s.name, planted⟩])) [] :=
  Tree.reslot_arranged (g := ⟨s.name, planted⟩) hs (congrArg (Prod.mk s.name) hshape) hn hf

theorem fillsSlot_value {child : Option Outline} (literal : String) (hface : face.kind = kind)
    (hs : (Template.slots (β := Tree) kind)[index]? = some s) (hshape : s.shape = .value)
    (hn : s.name ∉ done.map Slot.name) (hfills : ∀ o ∈ child, o.Fills)
    (hnest : ∀ o ∈ child, canNest (.slot kind .value) (.block o.kind) = true) (h : c.Sound none)
    (ht : c.tree? id = some (.node id face (Template.arranged kind done) [])) :
    c.FillsSlot id face kind done ⟨s.name, .value child literal⟩ := by
  have hslot := slotFor_eq h.toLinked ht hs
  have hempty := Template.content_eq (List.mem_of_getElem? hs)
  rw [hshape] at hslot hempty
  have hi := Template.getElem?_arranged hs hn
  -- the literal is typed first, also where a block will hide it
  obtain ⟨c₁, hset, hgrow, hnext, htree⟩ := exists_setLiteral h ht hi hshape literal
  cases child with
  | none =>
    refine ⟨c₁, ⟨s.name, .value none literal⟩, rfl, hgrow, ?_, fun given => ⟨?_, ?_⟩⟩
    · rw [htree, reslot_planted hs hn (.value none literal) hshape.symm]
      rw [hempty]
      rfl
    · simp only [Document.fillSlots, hslot, hset, Document.demand, bind, Except.bind]
    · rw [Outline.plantSlots, hnext]
  | some o =>
    have hkind : (Tree.node id face (Template.arranged kind done) []).kind = kind := hface
    obtain ⟨c₂, c₃, hinto, hfill, hgrow', hnext', htree'⟩ :=
      exists_nest (t := Tree.reslot index _ _) (hfills o rfl) hgrow.sound htree (Tree.slots_reslot hi)
        (by simpa [hkind, Slot.shape, hempty, Content.typed, Content.shape] using hnest o rfl)
        fun _ => by simp [hempty, Content.typed, Slot.children, Content.children]
    refine ⟨c₃, ⟨s.name, .value (some (o.plant c₁.nextId (c₁.nextId + 1)).1) literal⟩, rfl,
      hgrow.trans hgrow', ?_, fun given => ⟨?_, ?_⟩⟩
    · rw [htree', Tree.reslot_reslot, reslot_planted hs hn (.value (some _) literal) hshape.symm]
      rw [hempty]
      rfl
    · simp only [Document.fillSlots, hslot, hset, Document.demand, bind, Except.bind, hinto, hfill]
    · rw [Outline.plantSlots, hnext', hnext]

theorem fillsSlot_nothing (hs : (Template.slots (β := Tree) kind)[index]? = some s)
    (hshape : s.shape = .statement) (h : c.Sound none)
    (ht : c.tree? id = some (.node id face (Template.arranged kind done) [])) :
    c.FillsSlot id face kind done ⟨s.name, .value none ""⟩ := by
  have hslot := slotFor_eq h.toLinked ht hs
  rw [hshape] at hslot
  refine ⟨c, ⟨s.name, .value none ""⟩, rfl, .refl h id, ?_, fun given => ⟨?_, ?_⟩⟩
  · rw [ht, Template.arranged_append_of_ne fun s' hs' he => ?_]
    obtain ⟨j, hj⟩ := List.getElem?_of_mem hs'
    obtain rfl := Template.index_unique hs hj (congrArg Prod.fst he)
    obtain rfl := Option.some.inj (hs.symm.trans hj)
    cases hshape.symm.trans (congrArg Prod.snd he).symm
  · simp [Document.fillSlots, hslot, bind, Except.bind]
  · rw [Outline.plantSlots]

theorem fillsSlot_body {entries : List (Entry Outline)} (hface : face.kind = kind)
    (hs : (Template.slots (β := Tree) kind)[index]? = some s) (hshape : s.shape = .statement)
    (hn : s.name ∉ done.map Slot.name) (hfills : ∀ o ∈ (Content.body entries).children, o.Fills)
    (hnest : ∀ o ∈ (Content.body entries).children,
      canNest (.slot kind .statement) (.block o.kind) = true) (h : c.Sound none)
    (ht : c.tree? id = some (.node id face (Template.arranged kind done) [])) :
    c.FillsSlot id face kind done ⟨s.name, .body entries⟩ := by
  have hslot := slotFor_eq h.toLinked ht hs
  have hempty := Template.content_eq (List.mem_of_getElem? hs)
  rw [hshape] at hslot hempty
  have hkind : (Tree.node id face (Template.arranged kind done) []).kind = kind := hface
  have hlines := Template.canNest_typed (List.mem_of_getElem? hs) hshape
  obtain ⟨c₁, hfill, hgrow, hnext, htree⟩ := exists_fillBody entries hfills
    (by simpa [hkind] using hnest) (by simpa [hkind] using hlines) h ht
    (Template.getElem?_arranged hs hn) hshape
  refine ⟨c₁, ⟨s.name, .body (Outline.plantBody c.nextId entries).1⟩, rfl, hgrow, ?_,
    fun given => ⟨?_, ?_⟩⟩
  · rw [htree, reslot_planted hs hn (.body _) hshape.symm]
    rw [hempty]
    rfl
  · simp only [Document.fillSlots, hslot, hfill, bind, Except.bind]
  · rw [Outline.plantSlots, hnext]

theorem fillsSlot {g : Slot Outline} (hface : face.kind = kind) (hfits : Outline.Fits kind g)
    (hfills : ∀ o ∈ g.children, o.Fills) (hn : g.name ∉ done.map Slot.name) (h : c.Sound none)
    (ht : c.tree? id = some (.node id face (Template.arranged kind done) [])) :
    c.FillsSlot id face kind done g := by
  obtain ⟨i, s, hs, hname, hfit⟩ := hfits.exists_slot
  obtain ⟨name, content⟩ := g
  obtain rfl : s.name = name := hname
  rcases hfit with he | ⟨hshape, hnest⟩
  · obtain rfl : content = .value none "" := he
    cases hshape : s.shape with
    | value => exact fillsSlot_value "" hface hs hshape hn nofun nofun h ht
    | statement => exact fillsSlot_nothing hs hshape h ht
  · cases content with
    | value child literal =>
      have hmem : ∀ o ∈ child, o ∈ (Slot.mk s.name (.value child literal)).children := by
        rintro o rfl
        exact List.mem_singleton_self o
      exact fillsSlot_value literal hface hs hshape hn (fun o ho => hfills o (hmem o ho))
        (fun o ho => hnest o (hmem o ho)) h ht
    | body entries => exact fillsSlot_body hface hs hshape hn hfills hnest h ht

end Slots

theorem exists_fillSlots {face : Face} {kind : Kind} (hface : face.kind = kind)
    {given : List (Slot Outline)} (hfits : ∀ g ∈ given, Outline.Fits kind g)
    (hfills : ∀ g ∈ given, ∀ o ∈ g.children, o.Fills) (done : List (Slot Tree))
    (hnames : (done.map Slot.name ++ given.map Slot.name).Nodup) (h : c.Sound none)
    (ht : c.tree? id = some (.node id face (Template.arranged kind done) [])) :
    ∃ c', Document.fillSlots c id kind given = .ok c' ∧ c.Growth c' id ∧
      c'.nextId = (Outline.plantSlots c.nextId given).2 ∧
      c'.tree? id = some (.node id face
        (Template.arranged kind (done ++ (Outline.plantSlots c.nextId given).1)) []) := by
  induction given generalizing c done with
  | nil => exact ⟨c, rfl, .refl h id, rfl, by simpa [Outline.plantSlots] using ht⟩
  | cons g given ih =>
    have hn : g.name ∉ done.map Slot.name := fun hm =>
      (List.nodup_append.1 hnames).2.2 g.name hm g.name (by simp) rfl
    obtain ⟨c₁, planted, hname, hgrow, htree, hstep⟩ := fillsSlot hface
      (hfits g List.mem_cons_self) (hfills g List.mem_cons_self) hn h ht
    obtain ⟨c', hrest, hgrow', hnext', htree'⟩ :=
      ih (fun g hg => hfits g (List.mem_cons_of_mem _ hg))
        (fun g hg => hfills g (List.mem_cons_of_mem _ hg)) (done ++ [planted])
        (by simpa [hname] using hnames) hgrow.sound htree
    obtain ⟨hfill, hplant⟩ := hstep given
    refine ⟨c', hfill.trans hrest, hgrow.trans hgrow', ?_, ?_⟩
    · rw [hnext', hplant]
    · rw [htree', hplant, List.append_assoc, List.singleton_append]

theorem exists_fillChain {face : Face} {slots : List (Slot Tree)} {given : List Outline}
    (hif : given ≠ [] → face.kind = .ifBranch) (hconn : ∀ o ∈ given, o.kind.isConnector = true)
    (hone : given.Pairwise fun o o' => ¬ (o.kind = .elseBranch ∧ o'.kind = .elseBranch))
    (hfills : ∀ o ∈ given, o.Fills) (done : List Tree)
    (hapart : ∀ k ∈ done, ∀ o ∈ given, ¬ (k.kind = .elseBranch ∧ o.kind = .elseBranch))
    (h : c.Sound none) (ht : c.tree? id = some (.node id face slots (Tree.elseLast done)))
    (p : Point Float) :
    ∃ c', Document.fillChain c id p given = .ok c' ∧ c.Growth c' id ∧
      c'.nextId = (Outline.plantChain c.nextId given).2 ∧
      c'.tree? id = some (.node id face slots
        (Tree.elseLast (done ++ (Outline.plantChain c.nextId given).1))) := by
  induction given generalizing c done with
  | nil => exact ⟨c, rfl, .refl h id, rfl, by simpa [Outline.plantChain] using ht⟩
  | cons o given ih =>
    obtain ⟨hpair, hone⟩ := List.pairwise_cons.1 hone
    have hconn' := hconn o List.mem_cons_self
    obtain ⟨c₁, c₂, hattach, hfill, hgrow, hnext, htree⟩ :=
      exists_connect (hfills o List.mem_cons_self) h ht (hif (by simp)) hconn' (fun he k hk => by
        simpa [Tree.isElse, he] using hapart k (Tree.mem_elseLast.1 hk) o List.mem_cons_self) p
    rw [Tree.rechain, Tree.elseLast_append_elseLast] at htree
    -- the connectors still to come are no second else beside the one that has just joined
    obtain ⟨c', hrest, hgrow', hnext', htree'⟩ :=
      ih (fun _ => hif (by simp)) (fun o ho => hconn o (List.mem_cons_of_mem _ ho)) hone
        (fun o ho => hfills o (List.mem_cons_of_mem _ ho)) _ (fun k hk o' ho' => by
          rcases List.mem_append.1 hk with hk | hk
          · exact hapart k hk o' (List.mem_cons_of_mem _ ho')
          · obtain rfl := List.mem_singleton.1 hk
            rw [Outline.kind_plant]
            exact hpair o' ho') hgrow.sound htree
    refine ⟨c', ?_, hgrow.trans hgrow', ?_, ?_⟩
    · rw [instantiate] at hattach
      simp only [Document.fillChain, hconn', Bool.not_true, Bool.false_eq_true, if_false, instantiate,
        hattach, Document.demand, bind, Except.bind, hfill, hrest]
    · rw [hnext', hnext, Outline.plantChain]
    · rw [htree', hnext, Outline.plantChain, List.append_assoc, List.singleton_append]

/-! ### A whole block -/

theorem tree?_fresh (h : c.Linked none) {b : Block} (hb : c.block? id = some b) {kind : Kind}
    (hfresh : b.Fresh kind) :
    c.tree? id = some (.node id (Template.face kind) (Template.slots kind) []) := by
  rw [tree?_eq h, hb, Option.map_some, id_of_block? hb, hfresh.face, hfresh.slots, hfresh.chain,
    Template.filterMap_slots, List.filterMap_nil]

def retouch {α : Type} (id : BlockId) (given : Option α) (edit : α → Face → Face) (c : Canvas) :
    Except DocumentError Canvas :=
  match given with
  | some a => (Document.demand (c.editFace id (edit a))).map Prod.fst
  | none => .ok c

theorem caption_eq (c : Canvas) (id : BlockId) (given : Caption) :
    Document.caption c id given =
      (retouch id given.name (fun name face => { face with name }) c).bind fun c =>
        (retouch id given.operator (fun op face => { face with operator := some op }) c).bind fun c =>
          retouch id given.override (fun text face => { face with override := some text }) c := by
  obtain ⟨kind, name, operator, override, position⟩ := given
  cases name <;> cases operator <;> cases override <;> rfl

theorem exists_retouch {α : Type} (given : Option α) (edit : α → Face → Face)
    (hkind : ∀ a face, (edit a face).kind = face.kind)
    (hop : ∀ a face, face.operator ≠ none → (edit a face).operator ≠ none) (h : c.Sound none)
    (ht : c.tree? id = some t) :
    ∃ c₁, retouch id given edit c = .ok c₁ ∧ c.Growth c₁ id ∧ c₁.nextId = c.nextId ∧
      c₁.tree? id = some (t.reface fun face => given.elim face (edit · face)) := by
  cases given with
  | none =>
    refine ⟨c, rfl, .refl h id, rfl, ht.trans ?_⟩
    cases t
    rfl
  | some a =>
    obtain ⟨c₁, heq, hgrow, hnext, htree⟩ := exists_editFace h ht (hkind a) (hop a)
    exact ⟨c₁, by simp only [retouch, heq]; rfl, hgrow, hnext, htree⟩

theorem exists_caption {given : Caption} {slots : List (Slot Tree)} {chain : List Tree}
    (h : c.Sound none)
    (ht : c.tree? id = some (.node id (Template.face given.kind) slots chain)) :
    ∃ c', Document.caption c id given = .ok c' ∧ c.Growth c' id ∧ c'.nextId = c.nextId ∧
      c'.tree? id = some (.node id given.face slots chain) := by
  obtain ⟨c₁, heq₁, hgrow₁, hnext₁, htree₁⟩ := exists_retouch given.name
    (fun name face => { face with name }) (fun _ _ => rfl) (fun _ _ hop => hop) h ht
  obtain ⟨c₂, heq₂, hgrow₂, hnext₂, htree₂⟩ := exists_retouch given.operator
    (fun op face => { face with operator := some op }) (fun _ _ => rfl)
    (fun op _ _ => Option.some_ne_none op) hgrow₁.sound htree₁
  obtain ⟨c₃, heq₃, hgrow₃, hnext₃, htree₃⟩ := exists_retouch given.override
    (fun text face => { face with override := some text }) (fun _ _ => rfl)
    (fun _ _ hop => hop) hgrow₂.sound htree₂
  refine ⟨c₃, ?_, (hgrow₁.trans hgrow₂).trans hgrow₃, by rw [hnext₃, hnext₂, hnext₁], ?_⟩
  · simp only [caption_eq, heq₁, Except.bind, heq₂, heq₃]
  · rw [htree₃]
    obtain ⟨kind, name, operator, override, position⟩ := given
    cases name <;> cases operator <;> cases override <;> rfl

end Canvas

namespace Outline

theorem Legal.fills {o : Outline} (h : o.Legal) : o.Fills := by
  induction h with
  | @node given slots chain hnames hfits hif hconn hone _ _ ihslots ihchain =>
    intro c id b hc hb hfresh
    have hkind : (Outline.node given slots chain).kind = given.kind := rfl
    have ht := Canvas.tree?_fresh hc.toLinked hb hfresh
    rw [hkind] at ht
    obtain ⟨c₁, hcaption, hgrow₁, hnext₁, htree₁⟩ := Canvas.exists_caption hc ht
    rw [← Template.arranged_nil] at htree₁
    obtain ⟨c₂, hslots, hgrow₂, hnext₂, htree₂⟩ := Canvas.exists_fillSlots given.kind_face hfits ihslots
      [] (by simpa using hnames) hgrow₁.sound htree₁
    obtain ⟨c₃, hchain, hgrow₃, hnext₃, htree₃⟩ := Canvas.exists_fillChain
      (fun hne => given.kind_face.trans (hif hne)) hconn hone ihchain [] (by simp) hgrow₂.sound htree₂
      given.position
    refine ⟨c₃, ?_, (hgrow₁.trans hgrow₂).trans hgrow₃, ?_, ?_⟩
    · simp only [Document.fill, hcaption, hslots, hchain, bind, Except.bind]
    · rw [htree₃, hnext₂, hnext₁, plant]
      rfl
    · rw [hnext₃, hnext₂, hnext₁, plant]

end Outline

namespace Canvas
variable {c c' : Canvas}

/-! ### A whole document -/

theorem forest_append (h : c.Sound none) (h' : c'.Sound none)
    (hsame : ∀ y, y < c.nextId → c'.block? y = c.block? y) {k : BlockId}
    (hroots : c'.roots = c.roots ++ [k]) : c'.forest = c.forest ++ (c'.root? k).toList := by
  have hold : ∀ x ∈ c.roots, c'.root? x = c.root? x := by
    intro x hx
    obtain ⟨b, hb, -⟩ := Linked.exists_block_of_owner? (h.owner?_of_mem_listed (o := .free) hx)
    obtain ⟨t, ht⟩ := exists_tree? h.toLinked hb
    have ht' := tree?_congr h.toLinked h'.toLinked ht fun y hy => by
      obtain ⟨a, ha⟩ := exists_block_of_mem_ids h.toLinked ht hy
      exact hsame y (Growth.lt_nextId h.toLinked ha)
    rw [root?, root?, hsame x (Growth.lt_nextId h.toLinked hb), ht, ht']
  rw [forest, hroots, List.filterMap_append, List.filterMap_congr hold]
  cases hk : c'.root? k <;> simp [hk, forest]

theorem forest_placed (h : c.Sound none) {kind : Kind} {p : Point Float} {t : Tree}
    (hgrow : (c.instantiate kind p).1.Growth c' c.nextId) (ht : c'.tree? c.nextId = some t) :
    c'.forest = c.forest ++ [⟨p, t⟩] := by
  have hsame : ∀ y, y < c.nextId → c'.block? y = c.block? y := by
    intro y hy
    rw [hgrow.others y (Nat.lt_succ_of_lt hy) (Nat.ne_of_lt hy), block?_instantiate h.toLinked,
      if_neg (Nat.ne_of_lt hy)]
  have hroot : c'.root? c.nextId = some ⟨p, t⟩ := by
    obtain ⟨b, hb, hp⟩ : ∃ b, c'.block? c.nextId = some b ∧ b.position = p := by
      simpa [block?_instantiate h.toLinked, newborn] using hgrow.position
    rw [root?, hb, Option.bind_some, ht, Option.map_some, hp]
  rw [forest_append h hgrow.sound hsame hgrow.roots, hroot]
  rfl

theorem exists_placeAll {os : List Outline} (hlegal : ∀ o ∈ os, o.Legal)
    (hplace : ∀ o ∈ os, o.kind.isStatement = true) (h : c.Sound none) :
    ∃ c', Document.placeAll c os = .ok c' ∧ c'.Sound none ∧
      c'.forest = c.forest ++ Outline.plantAll c.nextId os ∧ c'.bounds = c.bounds ∧
      c'.discardZone = c.discardZone := by
  induction os generalizing c with
  | nil => exact ⟨c, rfl, h, by simp [Outline.plantAll], rfl, rfl⟩
  | cons o os ih =>
    let p := o.caption.position
    have hc₁ := sound_instantiate h o.kind p
    have hnew : (c.instantiate o.kind p).1.block? c.nextId = some (c.newborn o.kind p) := by
      rw [block?_instantiate h.toLinked, if_pos rfl]
    obtain ⟨c₂, hfill, hgrow, htree, hnext⟩ :=
      (hlegal o List.mem_cons_self).fills hc₁ hnew ⟨rfl, rfl, rfl⟩
    obtain ⟨c', hrest, hs, hforest, hbounds, hzone⟩ :=
      ih (fun o ho => hlegal o (List.mem_cons_of_mem _ ho))
        (fun o ho => hplace o (List.mem_cons_of_mem _ ho)) hgrow.sound
    refine ⟨c', ?_, hs, ?_, hbounds.trans hgrow.bounds, hzone.trans hgrow.discardZone⟩
    · simp only [Document.placeAll, hplace o List.mem_cons_self, Bool.not_true, Bool.false_eq_true,
        if_false, instantiate, bind, Except.bind]
      rw [instantiate] at hfill
      simp only [p] at hfill
      simp only [hfill, hrest]
    · rw [hforest, forest_placed h hgrow htree, hnext, Outline.plantAll]
      simp [instantiate, commit, spawn, p]

end Canvas

namespace Document

def ground (d : Document) : Canvas :=
  { Canvas.withBounds (d.bounds.getD Canvas.empty.bounds) with discardZone := d.discardZone }

theorem sound_ground (d : Document) : d.ground.Sound none :=
  (Canvas.sound_withBounds (d.bounds.getD Canvas.empty.bounds)).congr rfl rfl rfl

theorem build_eq (d : Document) :
    d.build = (placeAll d.ground d.blocks).bind fun c => .ok c.drainEvents.2 := by
  obtain ⟨bounds, zone, blocks⟩ := d
  cases bounds <;> rfl

/-- A legal document is built, and the canvas is the one it was planted as. -/
theorem exists_build {d : Document} (hlegal : ∀ o ∈ d.blocks, o.Legal)
    (hplace : ∀ o ∈ d.blocks, o.kind.isStatement = true) :
    ∃ c, d.build = .ok c ∧ c.Sound none ∧ c.forest = Outline.plantAll 1 d.blocks ∧
      c.bounds = d.bounds.getD Canvas.empty.bounds ∧ c.discardZone = d.discardZone := by
  obtain ⟨c, hplaced, hs, hforest, hbounds, hzone⟩ := Canvas.exists_placeAll hlegal hplace d.sound_ground
  refine ⟨c.drainEvents.2, ?_, hs.congr rfl rfl rfl, ?_, hbounds, hzone⟩
  · rw [build_eq, hplaced]
    rfl
  · have hdrained : c.drainEvents.2.forest = c.forest := Canvas.forest_congr rfl rfl
    exact hdrained.trans hforest

end Document
end BlockCanvas
