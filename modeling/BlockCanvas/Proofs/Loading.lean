import BlockCanvas.Proofs.Acceptance
import BlockCanvas.Proofs.Register

/-!
What a document is loaded as. The blocks of the canvas are those of the document, numbered from 1 in the
order in which the document is read: a block, what is in its slots as they are listed, its chain. Each is
put where the document has it and none has to make room for another (`Document.Mirrors`).
-/
namespace BlockCanvas

namespace Outline

def captions : Outline → List Caption :=
  fold fun given slots chain => given :: (slots.flatMap fun s => s.children.flatten) ++ chain.flatten

theorem captions_node (given : Caption) (slots : List (Slot Outline)) (chain : List Outline) :
    (node given slots chain).captions =
      given :: (slots.flatMap fun s => s.children.flatMap captions) ++ chain.flatMap captions := by
  rw [captions, fold_node, List.flatMap_map, ← List.flatMap_def]
  simp only [Slot.children_map, ← List.flatMap_def]

end Outline

namespace Canvas
variable {c c' : Canvas} {id : BlockId} {faces : List Face} {face : Face}

/-! ### Counted blocks -/

structure Counted (c : Canvas) (faces : List Face) : Prop where
  ids : c.blocks.map Block.id = List.range' 1 faces.length
  shown : c.blocks.map Block.toFace = faces
  nextId : c.nextId = faces.length + 1

namespace Counted

theorem congr (h : c.Counted faces) (he : c'.register = c.register) : c'.Counted faces := by
  obtain ⟨hblocks, hnext⟩ := Prod.mk.inj he
  have hids := congrArg (List.map Prod.fst) hblocks
  have hfaces := congrArg (List.map Prod.snd) hblocks
  simp only [List.map_map] at hids hfaces
  exact ⟨hids.trans h.ids, hfaces.trans h.shown, hnext.trans h.nextId⟩

theorem commit (h : c.Counted faces) (event : Event) : (c.commit event).Counted faces :=
  h.congr rfl

theorem spawn (h : c.Counted faces) (kind : Kind) (p : Point Float) :
    (c.spawn kind p).Counted (faces ++ [Template.face kind]) where
  ids := by simp [Canvas.spawn, h.ids, h.nextId, List.range'_concat, Nat.add_comm]
  shown := by simp [Canvas.spawn, h.shown]
  nextId := by simp [Canvas.spawn, h.nextId]

theorem instantiateInto (h : c.Counted faces) {kind : Kind} {slot : SlotId} {evicted : Option BlockId}
    (hok : c.instantiateInto kind slot = (c', .ok (id, evicted))) :
    id = faces.length + 1 ∧ c'.Counted (faces ++ [Template.face kind]) := by
  obtain ⟨rfl, hattach⟩ := instantiateInto_eq_ok hok
  have hhatched : (c.hatched kind (c.standing slot.host)).Counted (faces ++ [Template.face kind]) :=
    (h.spawn kind _).congr rfl
  exact ⟨h.nextId, hhatched.congr (register_attach hattach)⟩

theorem instantiate (h : c.Counted faces) (kind : Kind) (p : Point Float) :
    (c.instantiate kind p).1.Counted (faces ++ [Template.face kind]) :=
  (h.spawn kind p).commit _

theorem editFace (h : c.Counted (faces ++ [face])) {f : Face → Face}
    (hok : c.editFace (faces.length + 1) f = (c', .ok ())) : c'.Counted (faces ++ [f face]) := by
  obtain ⟨older, last, hblocks, holder, hlast⟩ := List.map_eq_append_iff.1 h.shown
  obtain ⟨b, rfl, hb⟩ := List.map_eq_singleton_iff.1 hlast
  have hlen : older.length = faces.length := by rw [← holder, List.length_map]
  have hids : older.map Block.id ++ [b.id] = List.range' 1 faces.length ++ [faces.length + 1] := by
    have he := h.ids
    rw [hblocks, List.map_append] at he
    simpa [List.range'_concat, Nat.add_comm] using he
  obtain ⟨hold, hid⟩ := List.append_inj hids (by simp [hlen])
  have hsame : ∀ a ∈ older, a.id ≠ faces.length + 1 := by
    intro a ha he
    have hm : a.id ∈ List.range' 1 faces.length := hold ▸ List.mem_map_of_mem ha
    rw [he, List.mem_range'_1] at hm
    omega
  let g : Block → Block := fun b => { b with toFace := f b.toFace }
  rw [Canvas.editFace] at hok
  split at hok
  · cases hok
  · obtain rfl := (Prod.mk.inj hok).1
    have hkept : older.map (fun a => (if a.id == faces.length + 1 then g a else a).toFace) = faces :=
      (List.map_congr_left fun a ha =>
        congrArg Block.toFace (if_neg (by simpa using hsame a ha))).trans holder
    have hb' : b.id = faces.length + 1 := by simpa using hid
    refine ⟨(ids_modify (f := g) (fun _ => rfl) _).trans (h.ids.trans (by simp)), ?_,
      h.nextId.trans (by simp)⟩
    simp only [Canvas.commit, modify, hblocks, List.map_append, List.map_map, List.map_cons, List.map_nil]
    refine congrArg₂ (· ++ ·) hkept ?_
    simp [hb', hb]

theorem setLiteral (h : c.Counted faces) {slot : SlotId} {text : String}
    (hok : c.setLiteral slot text = (c', .ok ())) : c'.Counted faces := by
  rw [Canvas.setLiteral] at hok
  split at hok
  · cases hok
  · cases hok
  · obtain rfl := (Prod.mk.inj hok).1
    exact (h.congr (register_modifySlot c slot _)).commit _

theorem pushLine (h : c.Counted faces) {slot : SlotId} {text : String} {n : Nat}
    (hok : c.pushLine slot text = (c', .ok n)) : c'.Counted faces := by
  rw [Canvas.pushLine] at hok
  split at hok
  · cases hok
  · split at hok
    · cases hok
    · split at hok
      · obtain rfl := (Prod.mk.inj hok).1
        exact (h.congr (register_modifySlot c slot _)).commit _
      · cases hok
      · cases hok

theorem retouch {α : Type} {given : Option α} {edit : α → Face → Face} (h : c.Counted (faces ++ [face]))
    (hok : Canvas.retouch (faces.length + 1) given edit c = .ok c') :
    c'.Counted (faces ++ [given.elim face (edit · face)]) := by
  cases given with
  | none =>
    obtain rfl := Except.ok.inj hok
    exact h
  | some a =>
    rw [Canvas.retouch] at hok
    cases hd : Document.demand (c.editFace (faces.length + 1) (edit a)) with
    | error e =>
      rw [hd] at hok
      cases hok
    | ok r =>
      rw [hd] at hok
      obtain rfl := Except.ok.inj hok
      exact h.editFace (Document.demand_eq_ok hd)

theorem caption {given : Caption} (h : c.Counted (faces ++ [Template.face given.kind]))
    (hok : Document.caption c (faces.length + 1) given = .ok c') :
    c'.Counted (faces ++ [given.face]) := by
  rw [caption_eq] at hok
  obtain ⟨c₁, h₁, hok⟩ := Document.bind_eq_ok hok
  obtain ⟨c₂, h₂, h₃⟩ := Document.bind_eq_ok hok
  have hcounted := ((h.retouch h₁).retouch h₂).retouch h₃
  obtain ⟨kind, name, operator, override, position⟩ := given
  cases name <;> cases operator <;> cases override <;> exact hcounted

end Counted

end Canvas

namespace Document
open Canvas (Counted)

/-! ### Blocks in the order in which they are read -/

mutual
theorem counted_fill {c c' : Canvas} {faces : List Face} :
    ∀ o : Outline, c.Counted (faces ++ [Template.face o.kind]) → fill c (faces.length + 1) o = .ok c' →
      c'.Counted (faces ++ o.captions.map Caption.face)
  | .node given slots chain, h, hfill => by
    obtain ⟨c₁, c₂, hcaption, hslots, hchain⟩ := fill_eq_ok hfill
    have h₁ : c₁.Counted (faces ++ [given.face]) := h.caption hcaption
    have h₂ := counted_fillSlots slots h₁ hslots
    have h₃ := counted_fillChain chain h₂ hchain
    rw [Outline.captions_node]
    simpa using h₃
theorem counted_fillSlots {c c' : Canvas} {id : BlockId} {kind : Kind} {faces : List Face} :
    ∀ slots, c.Counted faces → fillSlots c id kind slots = .ok c' →
      c'.Counted (faces ++ (slots.flatMap fun s => s.children.flatMap Outline.captions).map Caption.face)
  | [], h, hfill => by
    obtain rfl := Except.ok.inj hfill
    simpa using h
  | ⟨name, .value none literal⟩ :: slots, h, hfill => by
    obtain ⟨slot, shape, c₁, -, htakes, hrest⟩ := fillSlots_cons_eq_ok hfill
    cases htakes with
    | literal hset => exact counted_fillSlots slots (h.setLiteral hset) hrest
    | nothing => exact counted_fillSlots slots h hrest
  | ⟨name, .value (some o) literal⟩ :: slots, h, hfill => by
    obtain ⟨slot, shape, c₃, -, htakes, hrest⟩ := fillSlots_cons_eq_ok hfill
    cases htakes with
    | block hset hinto hchild =>
      obtain ⟨rfl, h₂⟩ := (h.setLiteral hset).instantiateInto hinto
      have h₄ := counted_fillSlots slots (counted_fill o h₂ hchild) hrest
      simpa [Slot.children, Content.children] using h₄
  | ⟨name, .body entries⟩ :: slots, h, hfill => by
    obtain ⟨slot, shape, c₁, -, htakes, hrest⟩ := fillSlots_cons_eq_ok hfill
    cases htakes with
    | body hentries =>
      have h₂ := counted_fillSlots slots (counted_fillBody entries h hentries) hrest
      simpa [Slot.children] using h₂
theorem counted_fillBody {c c' : Canvas} {slot : SlotId} {faces : List Face} :
    ∀ entries, c.Counted faces → fillBody c slot entries = .ok c' →
      c'.Counted (faces ++ ((Content.body entries).children.flatMap Outline.captions).map Caption.face)
  | [], h, hfill => by
    obtain rfl := Except.ok.inj hfill
    simpa [Content.children] using h
  | .block o :: entries, h, hfill => by
    obtain ⟨c₁, k, evicted, c₂, hinto, hchild, hrest⟩ := fillBody_block_eq_ok hfill
    obtain ⟨rfl, h₁⟩ := h.instantiateInto hinto
    have h₃ := counted_fillBody entries (counted_fill o h₁ hchild) hrest
    simpa [Content.children] using h₃
  | .line text :: entries, h, hfill => by
    obtain ⟨c₁, n, hpush, hrest⟩ := fillBody_line_eq_ok hfill
    exact counted_fillBody entries (h.pushLine hpush) hrest
theorem counted_fillChain {c c' : Canvas} {id : BlockId} {p : Point Float} {faces : List Face} :
    ∀ chain, c.Counted faces → fillChain c id p chain = .ok c' →
      c'.Counted (faces ++ (chain.flatMap Outline.captions).map Caption.face)
  | [], h, hfill => by
    obtain rfl := Except.ok.inj hfill
    simpa using h
  | o :: chain, h, hfill => by
    obtain ⟨-, c₁, c₂, hattach, hchild, hrest⟩ := fillChain_cons_eq_ok hfill
    have h₁ := (h.instantiate o.kind p).congr (Canvas.register_attachConnector hattach)
    rw [h.nextId] at hchild
    have h₃ := counted_fillChain chain (counted_fill o h₁ hchild) hrest
    simpa using h₃
end

theorem counted_placeAll {c c' : Canvas} {faces : List Face} {os : List Outline} (h : c.Counted faces)
    (hplace : placeAll c os = .ok c') :
    c'.Counted (faces ++ (os.flatMap Outline.captions).map Caption.face) := by
  induction os generalizing c faces with
  | nil =>
    obtain rfl := Except.ok.inj hplace
    simpa using h
  | cons o os ih =>
    obtain ⟨-, c₁, hfill, hrest⟩ := placeAll_cons_eq_ok hplace
    rw [h.nextId] at hfill
    have h₂ := ih (counted_fill o (h.instantiate o.kind o.caption.position) hfill) hrest
    simpa using h₂

/-! ### The canvas of a document -/

theorem quiet_placeAll {c c' : Canvas} {os : List Outline} (hd : ∀ o ∈ os, o.Distinct)
    (h : c.Sound none) (hq : c.Quiet) (hplace : placeAll c os = .ok c') : c'.Quiet := by
  induction os generalizing c with
  | nil =>
    obtain rfl := Except.ok.inj hplace
    exact hq
  | cons o os ih =>
    obtain ⟨ho, hos⟩ := List.forall_mem_cons.1 hd
    obtain ⟨-, c₁, hfill, hrest⟩ := placeAll_cons_eq_ok hplace
    obtain ⟨-, hgrow⟩ := growth_of_placed ho.vetted h hfill
    have hq₁ : (c.instantiate o.kind o.caption.position).1.Quiet :=
      hq.append (List.forall_mem_singleton.2 rfl) rfl
    exact ih hos hgrow.sound (hgrow.quiet hq₁) hrest

def captions (d : Document) : List Caption :=
  d.blocks.flatMap Outline.captions

structure Mirrors (d : Document) (c : Canvas) : Prop where
  ids : c.blocks.map Block.id = List.range' 1 d.captions.length
  faces : c.blocks.map Block.toFace = d.captions.map Caption.face
  roots : c.roots = (Outline.plantAll 1 d.blocks).map fun r => r.tree.id
  forest : c.forest = Outline.plantAll 1 d.blocks
  bounds : c.bounds = d.bounds.getD Canvas.empty.bounds
  discardZone : c.discardZone = d.discardZone
  events : c.events = []
  unmoved : ∃ placed, placeAll d.ground d.blocks = .ok placed ∧ placed.Quiet ∧ placed.drainEvents.2 = c

theorem mirrors_of_build {d : Document} (hd : ∀ o ∈ d.blocks, o.Distinct)
    (hlegal : ∀ o ∈ d.blocks, o.kind.isStatement = true ∧ o.Legal) {c : Canvas} (h : d.build = .ok c) :
    d.Mirrors c := by
  obtain ⟨c', hbuild, hs, hforest, hbounds, hzone⟩ :=
    exists_build (fun o ho => (hlegal o ho).2) fun o ho => (hlegal o ho).1
  obtain rfl := Except.ok.inj (h.symm.trans hbuild)
  rw [build_eq] at h
  obtain ⟨placed, hplaced, hdrained⟩ := bind_eq_ok h
  obtain rfl := Except.ok.inj hdrained
  have hground : d.ground.Counted [] := ⟨rfl, rfl, rfl⟩
  have hcounted := counted_placeAll hground hplaced
  have hquiet : placed.Quiet := quiet_placeAll hd d.sound_ground (List.forall_mem_nil _) hplaced
  refine ⟨?_, hcounted.shown, ?_, hforest, hbounds, hzone, rfl, placed, hplaced, hquiet, rfl⟩
  · have hids := hcounted.ids
    rw [List.nil_append, List.length_map] at hids
    exact hids
  · rw [← hforest]
    exact (Canvas.map_id_forest hs.toLinked).symm

theorem legal_of_build {d : Document} (hd : ∀ o ∈ d.blocks, o.Distinct) {c : Canvas}
    (h : d.build = .ok c) : ∀ o ∈ d.blocks, o.kind.isStatement = true ∧ o.Legal := by
  rw [build_eq] at h
  obtain ⟨placed, hplaced, -⟩ := bind_eq_ok h
  exact legal_of_placeAll hd d.sound_ground hplaced

/-- A document in which no block names a slot twice, as none does that is read of JSON in which no object
names a key twice, is built exactly if it is legal, and the canvas mirrors it. -/
theorem build_iff_legal {d : Document} (h : (∀ o ∈ d.blocks, o.Distinct) ∨
      ∃ value : Json, value.Keyed ∧ ofJson value = .ok d) :
    ((∃ c, d.build = .ok c) ↔ ∀ o ∈ d.blocks, o.kind.isStatement = true ∧ o.Legal) ∧
      ∀ c, d.build = .ok c → d.Mirrors c := by
  have hd : ∀ o ∈ d.blocks, o.Distinct := by
    rcases h with h | ⟨value, hkeyed, hread⟩
    · exact h
    · exact distinct_ofJson hkeyed hread
  refine ⟨⟨fun ⟨c, hbuild⟩ => legal_of_build hd hbuild, fun hlegal => ?_⟩,
    fun c hbuild => mirrors_of_build hd (legal_of_build hd hbuild) hbuild⟩
  obtain ⟨c, hbuild, -⟩ := exists_build (fun o ho => (hlegal o ho).2) fun o ho => (hlegal o ho).1
  exact ⟨c, hbuild⟩

theorem build_iff_legal_branching :
    let given (kind : Kind) (name : Option String) : Caption := ⟨kind, name, none, none, .origin⟩
    let print : Outline := .node (given .print none) [⟨"value", .value none "k"⟩] []
    let loop : Outline := .node (given .forLoop (some "k"))
      [⟨"body", .body [.line "a", .block print]⟩, ⟨"end", .value none "3"⟩] []
    let connector (kind : Kind) : Outline := .node (given kind none) [] []
    let choice : Outline := .node (given .ifBranch none) [⟨"body", .value none ""⟩]
      [connector .elseBranch, connector .elifBranch]
    let d : Document := ⟨none, none, [loop, choice]⟩
    let shown (c : Canvas) := (c.blocks.map Block.id, c.blocks.map fun b => b.name, c.roots,
      (c.block? 3).map Block.chain)
    (∀ o ∈ d.blocks, o.Distinct) ∧
      d.build.toOption.map shown = some ([1, 2, 3, 4, 5], ["k", "", "", "", ""], [1, 3], some [5, 4]) ∧
        (∀ o ∈ d.blocks, o.kind.isStatement = true ∧ o.Legal) ∧ ∃ c, d.build = .ok c ∧ d.Mirrors c := by
  intro given print loop connector choice d shown
  have hprint : print.Distinct :=
    .node (by decide) (by simp [Slot.children, Content.children]) (List.forall_mem_nil _)
  have hloop : loop.Distinct :=
    .node (by decide) (by simp [Slot.children, Content.children, Entry.block?, hprint])
      (List.forall_mem_nil _)
  have hconnector : ∀ kind, (connector kind).Distinct := fun kind =>
    .node List.nodup_nil (List.forall_mem_nil _) (List.forall_mem_nil _)
  have hchoice : choice.Distinct :=
    .node (by decide) (by simp [Slot.children, Content.children]) (by simp [hconnector])
  have hd : ∀ o ∈ d.blocks, o.Distinct := by simp [d, hloop, hchoice]
  have hbuilt : d.build.toOption.map shown =
      some ([1, 2, 3, 4, 5], ["k", "", "", "", ""], [1, 3], some [5, 4]) := by decide +kernel
  cases hbuild : d.build with
  | error e => simp [hbuild, Except.toOption] at hbuilt
  | ok c =>
    obtain ⟨haccepts, hmirrors⟩ := build_iff_legal (Or.inl hd)
    exact ⟨hd, hbuild ▸ hbuilt, haccepts.1 ⟨c, hbuild⟩, c, rfl, hmirrors c hbuild⟩

end Document
end BlockCanvas
