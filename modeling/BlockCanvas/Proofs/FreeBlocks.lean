import BlockCanvas.Proofs.Conservation
import BlockCanvas.Proofs.Preview

/-!
Which blocks lie about. A block that is placed on the canvas is asked whether it may sit there, one that is
pushed out of a slot is not. Of the blocks that have no place on the canvas, a run of a session leaves there
those it pushed out and no others.
-/
namespace BlockCanvas

theorem Kind.isStatement_eq_false_iff {kind : Kind} : kind.isStatement = false ↔ kind = .operation := by
  cases kind <;> decide

theorem Kind.ne_operation_of_isConnector {kind : Kind} (h : kind.isConnector = true) :
    kind ≠ .operation := by
  rintro rfl
  cases h

namespace Outcome

def evicted? : Outcome → Option BlockId
  | .nested _ _ evicted => evicted
  | _ => none

end Outcome

namespace Canvas
variable {c c' c'' : Canvas} {id x : BlockId} {slot : SlotId} {out evicted : Option BlockId}

def FreeFit (c : Canvas) : Prop :=
  ∀ id ∈ c.roots, ∃ kind, c.kind? id = some kind ∧ canNest .canvas (.block kind) = true

def Stray (c : Canvas) (x : BlockId) : Prop :=
  c.owner? x = some .free ∧ c.kind? x = some .operation

theorem exists_kind?_of_owner? {o : Owner} (h : c.owner? x = some o) : ∃ kind, c.kind? x = some kind := by
  obtain ⟨b, hb, -⟩ := Linked.exists_block_of_owner? h
  exact ⟨b.kind, by rw [kind?, hb, Option.map_some]⟩

theorem freeFit_iff (h : c.Linked none) : c.FreeFit ↔ ∀ x, ¬ c.Stray x := by
  constructor
  · rintro hfit x ⟨hfree, hkind⟩
    obtain ⟨kind, hk, hcan⟩ := hfit x (h.mem_listed_of_owner? hfree)
    obtain rfl := Option.some.inj (hk.symm.trans hkind)
    cases hcan
  · intro hnone id hid
    have hfree := h.owner?_of_mem_listed (o := .free) hid
    obtain ⟨kind, hk⟩ := exists_kind?_of_owner? hfree
    refine ⟨kind, hk, Bool.of_not_eq_false fun hcan => hnone id ⟨hfree, ?_⟩⟩
    rw [hk, Kind.isStatement_eq_false_iff.1 hcan]

/-- No operator block comes to lie about but the one that was pushed out, if that is one. -/
structure Straying (out : Option BlockId) (c c' : Canvas) : Prop where
  only : ∀ {x}, c'.Stray x → c.Stray x ∨ out = some x ∧ c.kind? x = some .operation
  pushed : ∀ {x}, out = some x → c.kind? x = some .operation → c'.Stray x

namespace Straying

theorem of_views (ho : c'.owner? = c.owner?) (hk : c'.kind? = c.kind?) : Straying none c c' where
  only h := by
    rw [Stray, ho, hk] at h
    exact Or.inl h
  pushed h := nomatch h

theorem drain (h : Straying out c c') : Straying out c c'.drainEvents.2 :=
  ⟨h.only, h.pushed⟩

theorem refl (c : Canvas) : Straying none c c :=
  .of_views rfl rfl

theorem trans (h : Straying none c c') (h' : Straying none c' c'') : Straying none c c'' where
  only hx := by
    rcases h'.only hx with hx | ⟨hx, -⟩
    · exact h.only hx
    · cases hx
  pushed hx := nomatch hx

end Straying

/-! ### Edits -/

theorem Undisturbed.kind? {moved : List BlockId} (h : c.Undisturbed moved c') (hids : c'.ids = c.ids) :
    c'.kind? = c.kind? := by
  funext x
  cases hb : c.block? x with
  | some b =>
    obtain ⟨b', hb', he⟩ := h.blocks hb
    rw [Canvas.kind?, hb', Canvas.kind?, hb, Option.map_some, Option.map_some,
      (Block.kept_of_apart he).face]
  | none =>
    have hnone : c'.block? x = none := by
      rw [← Option.not_isSome_iff_eq_none, Option.isSome_iff_exists, ← mem_ids_iff, hids, mem_ids_iff]
      simp [hb]
    rw [Canvas.kind?, hnone, Canvas.kind?, hb]

theorem Sound.owner?_attach (h : c.Sound none) (hok : c.attach id slot = (c', .ok evicted)) :
    c'.owner? x = some .free ↔ x ≠ id ∧ (c.owner? x = some .free ∨ evicted = some x) := by
  have hl := congrFun (congrArg Ledger.owner (h.ledger_attach hok)) x
  change c'.owner? x = _ at hl
  rw [hl, Ledger.owner_move]
  by_cases hx : x = id
  · simp [hx]
  · cases evicted with
    | none => simp [hx, ledger]
    | some k => by_cases hk : x = k <;> simp [hx, hk, Ledger.owner_release, ledger, Ne.symm]

theorem ne_of_evicted (hok : c.attach id slot = (c', .ok evicted)) (hx : evicted = some x) : x ≠ id := by
  obtain ⟨-, rfl, -⟩ := attach_eq_ok hok
  rintro rfl
  unfold occupant? at hx
  split at hx
  · split at hx
    · cases hx
    · rename_i hne
      exact hne (by simpa using hx)
  · cases hx

theorem Sound.stray_attach_iff (h : c.Sound none) (hok : c.attach id slot = (c', .ok evicted)) :
    c'.Stray x ↔ x ≠ id ∧ (c.owner? x = some .free ∨ evicted = some x) ∧
      c.kind? x = some .operation := by
  rw [Stray, h.owner?_attach hok, (h.undisturbed_attach hok).kind? (ids_attach hok), and_assoc]

theorem Sound.straying_attach (h : c.Sound none) (hok : c.attach id slot = (c', .ok evicted)) :
    c.Straying evicted c' where
  only hx := by
    obtain ⟨-, hfree | hout, hkind⟩ := (h.stray_attach_iff hok).1 hx
    · exact Or.inl ⟨hfree, hkind⟩
    · exact Or.inr ⟨hout, hkind⟩
  pushed hx hkind := (h.stray_attach_iff hok).2 ⟨ne_of_evicted hok hx, Or.inr hx, hkind⟩

theorem stray_spawn_iff (h : c.Linked none) {kind : Kind} {p : Point Float} (hx : x ≠ c.nextId) :
    (c.spawn kind p).Stray x ↔ c.Stray x := by
  rw [Stray, owner?_spawn h, if_neg hx, kind?_spawn_of_ne h kind p hx, Stray]

theorem Sound.straying_instantiateInto (h : c.Sound none) {kind : Kind}
    (hok : c.instantiateInto kind slot = (c', .ok (id, evicted))) : c.Straying evicted c' := by
  obtain ⟨-, hattach⟩ := instantiateInto_eq_ok hok
  have hs := h.hatched kind (c.standing slot.host)
  have hstray := hs.straying_attach hattach
  constructor
  · intro x hx
    have hne := ((hs.stray_attach_iff hattach).1 hx).1
    refine (hstray.only hx).imp (stray_spawn_iff h.toLinked hne).1 (And.imp_right fun hk => ?_)
    exact (kind?_spawn_of_ne h.toLinked kind _ hne).symm.trans hk
  · intro x hx hkind
    refine hstray.pushed hx ?_
    exact (kind?_spawn_of_ne h.toLinked kind _ (ne_of_evicted hattach hx)).trans hkind

theorem Sound.straying_instantiate (h : c.Sound none) {kind : Kind} (hkind : kind ≠ .operation)
    (p : Point Float) : Straying none c (c.instantiate kind p).1 where
  only {x} hx := by
    by_cases he : x = c.nextId
    · subst he
      have hk : (c.instantiate kind p).1.kind? c.nextId = some kind := by
        rw [Canvas.kind?, block?_instantiate h.toLinked, if_pos rfl, Option.map_some, newborn,
          Template.kind_face]
      exact absurd (Option.some.inj (hk.symm.trans hx.2)) hkind
    · exact Or.inl ((stray_spawn_iff h.toLinked he).1 hx)
  pushed hx := nomatch hx

theorem Sound.straying_attachConnector (h : c.Sound none) {head : BlockId}
    (hok : c.attachConnector id head = (c', .ok ())) : Straying none c c' where
  only {x} hx := by
    have hl := congrFun (congrArg Ledger.owner (h.ledger_attachConnector hok)) x
    rw [Ledger.owner_move] at hl
    change c'.owner? x = _ at hl
    rw [Stray, hl, (h.undisturbed_attachConnector hok).kind? (ids_attachConnector hok)] at hx
    split at hx
    · simp at hx
    · exact Or.inl hx
  pushed hx := nomatch hx

theorem Sound.straying_detachToFree (h : c.Sound none) {p : Point Float}
    (hok : c.detachToFree id p = (c', .ok ())) : Straying none c c' where
  only {x} hx := by
    have hl := congrFun (congrArg Ledger.owner (h.ledger_detachToFree hok)) x
    change c'.owner? x = _ at hl
    rw [Stray, hl, (h.undisturbed_detachToFree hok).kind? (ids_detachToFree hok)] at hx
    obtain ⟨b, hb, hcan, -⟩ := detachToFree_eq_ok hok
    by_cases he : x = id
    · -- a block that is put there on purpose was asked
      have hk : c.kind? id = some b.kind := by rw [Canvas.kind?, hb, Option.map_some]
      rw [he, hk] at hx
      rw [Option.some.inj hx.2] at hcan
      cases hcan
    · refine Or.inl ⟨?_, hx.2⟩
      have ho := hx.1
      simp only [Ledger.apply] at ho
      split at ho
      · exact ho
      · rwa [Ledger.owner_release, if_neg he] at ho
  pushed hx := nomatch hx

theorem Sound.straying_discard (h : c.Sound none) {removed : List BlockId}
    (hok : c.discard id = (c', .ok removed)) : Straying none c c' where
  only {x} hx := by
    obtain ⟨b, hb, -, rfl⟩ := discard_eq_ok hok
    by_cases hw : c.Within x id
    · have hnone : ((c.prune id).commit (.discarded removed)).owner? x = none :=
        owner?_prune_of_within h.toLinked hb hw
      cases hnone.symm.trans hx.1
    · have ho : (c.prune id).owner? x = some .free := hx.1
      have hk : (c.prune id).kind? x = some .operation := hx.2
      rw [owner?_prune_of_not_within h.toLinked hb hw] at ho
      rw [kind?_prune_of_not_within h.toLinked hb hw] at hk
      exact Or.inl ⟨ho, hk⟩
  pushed hx := nomatch hx

theorem Retyped.straying (h : c.Retyped slot c') : Straying none c c' := by
  cases h with
  | refused => exact .refl c
  | rewritten content =>
    exact .of_views (owner?_modify (f := Block.reslot slot.index fun _ => content) (fun _ => rfl)
        (fun _ => rfl) slot.host)
      (kind?_modify (f := Block.reslot slot.index fun _ => content) (fun _ => rfl) (fun _ => rfl)
        slot.host)

theorem straying_editFace (c : Canvas) (id : BlockId) {f : Face → Face}
    (hkind : ∀ face, (f face).kind = face.kind) : Straying none c (c.editFace id f).1 := by
  let g : Block → Block := fun b => { b with toFace := f b.toFace }
  unfold editFace
  split
  · exact .refl c
  · exact .of_views (owner?_modify (f := g) (fun _ => rfl) (fun _ => rfl) id)
      (kind?_modify (f := g) (fun _ => rfl) (fun b => hkind b.toFace) id)

end Canvas

/-! ### Gestures -/

theorem Drag.End.straying {c : Canvas} (h : c.Sound none) {r : Canvas × Outcome} (hend : Drag.End c r) :
    c.Straying r.2.evicted? r.1 := by
  cases hend with
  | @left outcome ho =>
    cases outcome with
    | nested | connected | freed | discarded => cases ho
    | abandoned | rejected => exact .refl c
  | moved hok => exact h.straying_attach hok
  | created hok => exact h.straying_instantiateInto hok
  | joined hok => exact h.straying_attachConnector hok
  | @hung c' kind p head hconn hok =>
    exact (h.straying_instantiate (Kind.ne_operation_of_isConnector hconn) p).trans
      ((Canvas.sound_instantiate h kind p).straying_attachConnector hok)
  | freed hok => exact h.straying_detachToFree hok
  | placed hcan =>
    refine h.straying_instantiate (fun he => ?_) _
    rw [he] at hcan
    cases hcan
  | discarded hok => exact h.straying_discard hok

/-! ### Runs of a session -/

namespace Session
variable {s : Session}

def Operation.gesture? : Operation → Option Gesture
  | .drop p => some (.drop p)
  | .activate id => some (.activate id)
  | .discard id => some (.discard id)
  | .attachConnector id => some (.attachConnector id)
  | _ => none

def Operation.outcast? (s : Session) (op : Operation) : Option BlockId :=
  (op.gesture?.bind fun g => (g.apply s.hand s.canvas).2.2.evicted?).filter fun k =>
    s.canvas.kind? k == some .operation

def outcasts (s : Session) : List Operation → List BlockId
  | [] => []
  | op :: ops => (op.outcast? s).toList ++ (op.apply s).outcasts ops

theorem straying_settle (h : s.canvas.Sound none) (g : Gesture) :
    s.canvas.Straying (g.apply s.hand s.canvas).2.2.evicted?
      (s.settle (g.apply s.hand s.canvas)).1.canvas := by
  have hend := (g.ends h s.hand).straying h
  rw [settle, canvas_refresh]
  exact hend.drain

theorem straying_edited {α : Type} {r : Canvas × Except Refusal α}
    (h : Canvas.Straying none s.canvas r.1) : Canvas.Straying none s.canvas (s.edited r).1.canvas := by
  rw [edited, canvas_refresh]
  exact h.drain

theorem straying_step (h : s.canvas.Sound none) (op : Operation) :
    s.canvas.Straying (op.gesture?.bind fun g => (g.apply s.hand s.canvas).2.2.evicted?)
      (op.apply s).canvas := by
  cases op with
  | subscribe | beginTransfer | cancelTransfer | takeNotices => exact .refl s.canvas
  | drop p => exact straying_settle h (.drop p)
  | activate id => exact straying_settle h (.activate id)
  | discard id => exact straying_settle h (.discard id)
  | attachConnector id => exact straying_settle h (.attachConnector id)
  | setLiteral slot text => exact straying_edited (s.canvas.retyped_setLiteral slot text).straying
  | typeLine slot text => exact straying_edited (s.canvas.retyped_pushLine slot text).straying
  | removeLine slot index => exact straying_edited (s.canvas.retyped_removeLine slot index).straying
  | setName id name =>
    exact straying_edited (s.canvas.straying_editFace (f := fun face => { face with name }) id
      fun _ => rfl)
  | setOperator id op =>
    exact straying_edited (s.canvas.straying_editFace (f := fun face => { face with operator := some op })
      id fun _ => rfl)

theorem outcast?_eq_some {op : Operation} {x : BlockId} : op.outcast? s = some x ↔
    (op.gesture?.bind fun g => (g.apply s.hand s.canvas).2.2.evicted?) = some x ∧
      s.canvas.kind? x = some .operation := by
  rw [Operation.outcast?, Option.filter_eq_some_iff, beq_iff_eq]

theorem stray_step (h : s.canvas.Sound none) {op : Operation} {x : BlockId}
    (hx : (op.apply s).canvas.Stray x) : s.canvas.Stray x ∨ op.outcast? s = some x := by
  rw [outcast?_eq_some]
  exact (straying_step h op).only hx

theorem stray_of_outcast? (h : s.canvas.Sound none) {op : Operation} {x : BlockId}
    (hx : op.outcast? s = some x) : (op.apply s).canvas.Stray x :=
  (straying_step h op).pushed (outcast?_eq_some.1 hx).1 (outcast?_eq_some.1 hx).2

namespace Coherent

theorem stray_run (h : s.Coherent) (ops : List Operation) {x : BlockId}
    (hx : (s.run ops).canvas.Stray x) : s.canvas.Stray x ∨ x ∈ s.outcasts ops := by
  induction ops generalizing s with
  | nil => exact Or.inl hx
  | cons op ops ih =>
    rw [outcasts, List.mem_append, Option.mem_toList]
    rcases ih (h.step op).coherent hx with hx | hx
    · exact (stray_step h.reachable.sound hx).imp_right Or.inl
    · exact Or.inr (Or.inr hx)

theorem outcasts_eq_nil_iff (h : s.Coherent) (hfit : s.canvas.FreeFit) (ops : List Operation) :
    s.outcasts ops = [] ↔ ∀ n, (s.run (ops.take n)).canvas.FreeFit := by
  induction ops generalizing s with
  | nil =>
    refine ⟨fun _ n => ?_, fun _ => rfl⟩
    rw [List.take_nil]
    exact hfit
  | cons op ops ih =>
    have hnext := (h.step op).coherent
    have hstep : op.outcast? s = none ↔ (op.apply s).canvas.FreeFit := by
      rw [Canvas.freeFit_iff hnext.reachable.sound.toLinked]
      constructor
      · intro hnone x hx
        rcases stray_step h.reachable.sound hx with hx | hx
        · exact (Canvas.freeFit_iff h.reachable.sound.toLinked).1 hfit x hx
        · exact absurd hx (by simp [hnone])
      · intro hfree
        exact Option.eq_none_iff_forall_ne_some.2 fun x hx =>
          hfree x (stray_of_outcast? h.reachable.sound hx)
    rw [outcasts, List.append_eq_nil_iff, Option.toList_eq_nil_iff]
    constructor
    · rintro ⟨hnone, hrest⟩ n
      cases n with
      | zero => exact hfit
      | succ n => exact (ih hnext (hstep.1 hnone)).1 hrest n
    · intro hall
      have hfirst : (op.apply s).canvas.FreeFit := hall 1
      exact ⟨hstep.2 hfirst, (ih hnext hfirst).2 fun n => hall (n + 1)⟩

end Coherent

/-- Whatever is done in a session from scratch, a free block that has no place on the canvas is one that a drop
pushed out of a slot, and as long as no drop does that to an operator, every free block has its place. -/
theorem free_blocks_run (o : Python.Options) (ops : List Operation) :
    let s := start .empty o
    (∀ id ∈ (s.run ops).canvas.roots,
        (∃ kind, (s.run ops).canvas.kind? id = some kind ∧ canNest .canvas (.block kind) = true) ∨
          id ∈ s.outcasts ops) ∧
      (s.outcasts ops = [] ↔ ∀ n, (s.run (ops.take n)).canvas.FreeFit) := by
  intro s
  have hempty : Canvas.empty.Reachable := .start _
  have hs : s.Coherent := coherent_start hempty o
  have hfit : s.canvas.FreeFit := fun id hid => nomatch hid
  have hrun := (hs.run ops).coherent.reachable.sound
  refine ⟨fun id hid => ?_, hs.outcasts_eq_nil_iff hfit ops⟩
  have hfree := hrun.owner?_of_mem_listed (o := .free) hid
  obtain ⟨kind, hk⟩ := Canvas.exists_kind?_of_owner? hfree
  cases hcan : canNest .canvas (.block kind) with
  | true => exact Or.inl ⟨kind, hk, hcan⟩
  | false =>
    have hstray : (s.run ops).canvas.Stray id := ⟨hfree, by rw [hk, Kind.isStatement_eq_false_iff.1 hcan]⟩
    rcases hs.stray_run ops hstray with hx | hx
    · exact absurd hx ((Canvas.freeFit_iff hs.reachable.sound.toLinked).1 hfit id)
    · exact Or.inr hx

theorem free_blocks_operator :
    let ops : List Operation :=
      [.beginTransfer (.template .print), .drop ⟨100, 100⟩, .beginTransfer (.template .operation),
        .drop ⟨200, 116⟩, .beginTransfer (.template .assignment), .drop ⟨164, 104⟩]
    let s := start .empty {}
    (s.run ops).canvas.roots = [1, 2] ∧ (s.run ops).canvas.kind? 2 = some .operation ∧
      s.outcasts ops = [2] ∧ ¬ (s.run ops).canvas.FreeFit := by
  intro ops s
  have hroots : (s.run ops).canvas.roots = [1, 2] := by decide +kernel
  have hkind : (s.run ops).canvas.kind? 2 = some .operation := by decide +kernel
  refine ⟨hroots, hkind, by decide +kernel, fun hfit => ?_⟩
  obtain ⟨kind, hk, hcan⟩ := hfit 2 (by simp [hroots])
  obtain rfl := Option.some.inj (hk.symm.trans hkind)
  cases hcan

end Session
end BlockCanvas
