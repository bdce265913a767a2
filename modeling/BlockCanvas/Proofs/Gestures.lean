import BlockCanvas.Proofs.Reachable
import BlockCanvas.Canvas.Drag

/-!
What comes of a gesture of the hand. A gesture that ends in no change leaves the canvas as it was, though
some of its edits follow others: an edit that follows the creation of a block is never refused.
-/
namespace BlockCanvas

namespace Canvas
variable {c c' : Canvas} {α : Type}

inductive Gestured (c : Canvas) : Canvas × Outcome → Prop
  | left {outcome : Outcome} : outcome.isCommitted = false → Gestured c (c, outcome)
  | changed {c' : Canvas} {outcome : Outcome} (first : Event) (more : List Event) :
      outcome.isCommitted = true → c'.Sound none → c.revision < c'.revision →
      c'.events = c.events ++ first :: more → Gestured c (c', outcome)

theorem Step.gestured {a : α} {outcome : Outcome} (h : c.Step (c', .ok a))
    (ho : outcome.isCommitted = true) : c.Gestured (c', outcome) := by
  obtain ⟨hs, -, first, more, hset⟩ := h.of_ok
  simp only [setting, Prod.mk.injEq] at hset
  obtain ⟨hr, he, -⟩ := hset
  exact .changed first more ho hs (by omega) he

def answered (answer : α → Outcome) : Canvas × Except Refusal α → Canvas × Outcome
  | (c, .ok a) => (c, answer a)
  | (c, .error e) => (c, .rejected e)

theorem Gestured.created {r : Canvas × Outcome} {kind : Kind} {p : Point Float}
    (h : (c.instantiate kind p).1.Gestured r) (ho : r.2.isCommitted = true) : c.Gestured r := by
  cases h with
  | left hl => cases hl.symm.trans ho
  | changed first more ho hs hr he =>
    refine .changed (.created c.nextId) (first :: more) ho hs (Nat.lt_of_succ_lt hr) ?_
    simpa [instantiate, commit, spawn] using he

end Canvas

namespace Drag
open Canvas
variable {c : Canvas}

/-! ### The ends of a drop -/

theorem nest_some (c : Canvas) (kind : Kind) (id : BlockId) (slot : SlotId) :
    nest c kind (some id) slot = answered (.nested id slot ·) (c.attach id slot) := by
  rcases hr : c.attach id slot with ⟨c', _ | _⟩ <;> simp [nest, answered, hr]

theorem nest_none (c : Canvas) (kind : Kind) (slot : SlotId) :
    nest c kind none slot = answered (fun a => .nested a.1 slot a.2) (c.instantiateInto kind slot) := by
  rcases hr : c.instantiateInto kind slot with ⟨c', _ | _⟩ <;> simp [nest, answered, hr]

theorem connect_some {kind : Kind} {id head : BlockId}
    (hcheck : c.checkConnector kind (some id) head = .ok ()) :
    connect c kind (some id) head =
      answered (fun _ => .connected id head) (c.attachConnector id head) := by
  rcases hr : c.attachConnector id head with ⟨c', _ | _⟩ <;> simp [connect, answered, hcheck, hr]

theorem connect_none {kind : Kind} {head : BlockId}
    (hcheck : c.checkConnector kind none head = .ok ()) :
    connect c kind none head =
      answered (fun _ => .connected c.nextId head)
        ((c.instantiate kind (c.standing head)).1.attachConnector c.nextId head) := by
  rcases hr : (c.instantiate kind (c.standing head)).1.attachConnector c.nextId head with
    ⟨c', _ | _⟩ <;> unfold standing instantiate at hr <;>
    simp [connect, answered, hcheck, instantiate, hr]

theorem placeFree_some {kind : Kind} (hfits : canNest .canvas (.block kind) = true) (id : BlockId)
    (p : Point Float) :
    placeFree c kind (some id) p = answered (fun _ => .freed id p) (c.detachToFree id p) := by
  rcases hr : c.detachToFree id p with ⟨c', _ | _⟩ <;> simp [placeFree, answered, hfits, hr]

theorem discard_eq (c : Canvas) (id : BlockId) :
    discard c id = answered .discarded (c.discard id) := by
  rcases hr : c.discard id with ⟨c', _ | _⟩ <;> simp [discard, answered, hr]

inductive End (c : Canvas) : Canvas × Outcome → Prop
  | left {outcome : Outcome} : outcome.isCommitted = false → End c (c, outcome)
  | moved {c' : Canvas} {id : BlockId} {slot : SlotId} {evicted : Option BlockId} :
      c.attach id slot = (c', .ok evicted) → End c (c', .nested id slot evicted)
  | created {c' : Canvas} {kind : Kind} {id : BlockId} {slot : SlotId} {evicted : Option BlockId} :
      c.instantiateInto kind slot = (c', .ok (id, evicted)) → End c (c', .nested id slot evicted)
  | joined {c' : Canvas} {id head : BlockId} :
      c.attachConnector id head = (c', .ok ()) → End c (c', .connected id head)
  | hung {c' : Canvas} {kind : Kind} {p : Point Float} {head : BlockId} : kind.isConnector = true →
      (c.instantiate kind p).1.attachConnector c.nextId head = (c', .ok ()) →
      End c (c', .connected c.nextId head)
  | freed {c' : Canvas} {id : BlockId} {p : Point Float} :
      c.detachToFree id p = (c', .ok ()) → End c (c', .freed id p)
  | placed {kind : Kind} {p : Point Float} : canNest .canvas (.block kind) = true →
      End c ((c.instantiate kind p).1, .freed c.nextId p)
  | discarded {c' : Canvas} {id : BlockId} {removed : List BlockId} :
      c.discard id = (c', .ok removed) → End c (c', .discarded removed)

theorem End.answered {α : Type} {r : Canvas × Except Refusal α} {answer : α → Outcome} (h : c.Step r)
    (hok : ∀ {c' a}, r = (c', .ok a) → End c (c', answer a)) : End c (answered answer r) := by
  cases h with
  | refused e => exact .left rfl
  | committed a => exact hok rfl

theorem end_nest (h : c.Sound none) (kind : Kind) (moving : Option BlockId) (slot : SlotId) :
    End c (nest c kind moving slot) := by
  cases moving with
  | some id =>
    rw [nest_some]
    exact .answered (h.attach id slot) .moved
  | none =>
    rw [nest_none]
    exact .answered (h.instantiateInto kind slot) .created

theorem end_connect (h : c.Sound none) {kind : Kind} (hconn : kind.isConnector = true)
    (moving : Option BlockId) (head : BlockId) : End c (connect c kind moving head) := by
  cases hcheck : c.checkConnector kind moving head with
  | error e =>
    simp only [connect, hcheck]
    exact .left rfl
  | ok _ =>
    cases moving with
    | some id =>
      rw [connect_some hcheck]
      exact .answered (h.attachConnector id head) .joined
    | none =>
      obtain ⟨c', hr⟩ := attachConnector_instantiate h hconn hcheck (c.standing head)
      rw [connect_none hcheck, hr]
      exact .hung hconn hr

theorem end_placeFree (h : c.Sound none) (kind : Kind) (moving : Option BlockId) (p : Point Float) :
    End c (placeFree c kind moving p) := by
  cases hfits : canNest .canvas (.block kind) with
  | false =>
    simp only [placeFree, hfits, Bool.not_false, if_true]
    exact .left rfl
  | true =>
    cases moving with
    | some id =>
      rw [placeFree_some hfits]
      exact .answered (h.detachToFree id p) .freed
    | none =>
      simp only [placeFree, hfits, Bool.not_true, Bool.false_eq_true, if_false]
      exact .placed hfits

theorem end_discard (h : c.Sound none) (id : BlockId) : End c (discard c id) := by
  rw [discard_eq]
  exact .answered (h.discard id) .discarded

/-! ### The gestures -/

theorem end_settle (h : c.Sound none) (kind : Kind) (moving : Option BlockId) (p : Point Float) :
    End c (settle c kind moving p) := by
  simp only [settle]
  split
  · rename_i hconn
    split
    · exact end_connect h hconn moving _
    · exact end_placeFree h kind moving p
  · split
    · split
      · split
        · exact end_nest h kind moving _
        · exact end_placeFree h kind moving p
      · exact end_placeFree h kind moving p
    · exact end_placeFree h kind moving p

theorem end_drop (h : c.Sound none) (carried : Option Transfer) (p : Point Float) :
    End c (drop c carried p) := by
  unfold drop
  split
  · exact .left rfl
  · split
    · exact .left rfl
    · split
      · exact .left rfl
      · exact end_settle h _ _ p
  · split
    · exact .left rfl
    · split
      · exact .left rfl
      · split
        · exact end_discard h _
        · exact end_settle h _ _ p

theorem end_activate (h : c.Sound none) (id : BlockId) : End c (activate c id) := by
  unfold activate
  cases c.block? id with
  | none => exact .left rfl
  | some b =>
    dsimp only
    split
    · exact .left rfl
    · generalize ((c.geometry.blockRect? id).map Rect.origin).getD (c.anchor id) = p
      have hs := h.detachToFree id p
      rcases hr : c.detachToFree id p with ⟨c', e | _⟩
      · rw [hr] at hs
        cases hs with
        | refused => exact .left rfl
      · exact .freed hr

theorem end_attachConnector (h : c.Sound none) (id : BlockId) : End c (attachConnector c id) := by
  unfold attachConnector
  cases c.block? id with
  | none => exact .left rfl
  | some b =>
    dsimp only
    split
    · exact .left rfl
    · rename_i hconn
      split
      · exact end_connect h (by simpa using hconn) _ _
      · exact .left rfl

theorem End.gestured (h : c.Sound none) {r : Canvas × Outcome} (hend : End c r) : c.Gestured r := by
  cases hend with
  | left ho => exact .left ho
  | moved hok => exact (hok ▸ h.attach _ _).gestured rfl
  | created hok => exact (hok ▸ h.instantiateInto _ _).gestured rfl
  | joined hok => exact (hok ▸ h.attachConnector _ _).gestured rfl
  | @hung c' kind p head _ hok =>
    have hstep := (sound_instantiate h kind p).attachConnector c.nextId head
    have hlater : (c.instantiate kind p).1.Gestured (c', .connected c.nextId head) :=
      (hok ▸ hstep).gestured rfl
    exact hlater.created rfl
  | freed hok => exact (hok ▸ h.detachToFree _ _).gestured rfl
  | @placed kind p _ =>
    exact .changed (.created c.nextId) [] rfl (sound_instantiate h kind p) (Nat.lt_succ_self _) rfl
  | discarded hok => exact (hok ▸ h.discard _).gestured rfl

end Drag

inductive Gesture where
  | drop (p : Point Float)
  | activate (id : BlockId)
  | discard (id : BlockId)
  | attachConnector (id : BlockId)

namespace Gesture

def apply (h : Hand) (c : Canvas) : Gesture → Hand × Canvas × Outcome
  | .drop p => h.drop c p
  | .activate id => h.activate c id
  | .discard id => h.discard c id
  | .attachConnector id => h.attachConnector c id

theorem ends {c : Canvas} (hc : c.Sound none) (h : Hand) (g : Gesture) :
    Drag.End c (g.apply h c).2 := by
  cases g with
  | drop p => exact Drag.end_drop hc h.carried p
  | activate id => exact Drag.end_activate hc id
  | discard id => exact Drag.end_discard hc id
  | attachConnector id => exact Drag.end_attachConnector hc id

theorem gestured {c : Canvas} (hc : c.Sound none) (h : Hand) (g : Gesture) :
    c.Gestured (g.apply h c).2 :=
  (g.ends hc h).gestured hc

theorem hand_empty (h : Hand) (c : Canvas) (g : Gesture) : (g.apply h c).1 = Hand.empty := by
  cases g <;> rfl

end Gesture

namespace Canvas
variable {c : Canvas}

structure AllOrNothing (c : Canvas) : Prop where
  refused : ∀ (e : Edit) (refusal : Refusal),
    (e.apply c).2 = .error refusal → (e.apply c).1 = c
  committed : ∀ e : Edit, (e.apply c).2 = .ok () →
    (e.apply c).1.revision = c.revision + 1 ∧
      ∃ first more, (e.apply c).1.events = c.events ++ first :: more
  left : ∀ (hand : Hand) (g : Gesture),
    (g.apply hand c).2.2.isCommitted = false → (g.apply hand c).2.1 = c
  changed : ∀ (hand : Hand) (g : Gesture), (g.apply hand c).2.2.isCommitted = true →
    c.revision < (g.apply hand c).2.1.revision ∧
      ∃ first more, (g.apply hand c).2.1.events = c.events ++ first :: more
  released : ∀ (hand : Hand) (g : Gesture), (g.apply hand c).1.carried = none
  attached : ∀ (kind : Kind) (slot : SlotId) (place : Place) (p : Point Float),
    c.place slot = .ok place → canNest place (.block kind) = true →
      ∃ evicted, ((c.hatched kind p).attach c.nextId slot).2 = .ok evicted
  connected : ∀ (kind : Kind) (head : BlockId) (p : Point Float), kind.isConnector = true →
    c.checkConnector kind none head = .ok () →
      ((c.instantiate kind p).1.attachConnector (c.instantiate kind p).2 head).2 = .ok ()

/-- An edit that is refused and a gesture that ends in no change leave the canvas as it was; one that is
committed raises the revision and queues its events behind the old. -/
theorem Reachable.all_or_nothing (h : c.Reachable) : c.AllOrNothing where
  refused e refusal he := by
    have hstep := e.step h.sound
    generalize e.apply c = r at hstep he
    cases hstep with
    | refused => rfl
    | committed => cases he
  committed e he := by
    have hstep := e.step h.sound
    generalize e.apply c = r at hstep he
    cases hstep with
    | refused => cases he
    | committed _ first more _ hset =>
      simp only [setting, Prod.mk.injEq] at hset
      exact ⟨hset.1, first, more, hset.2.1⟩
  left hand g ho := by
    have hg := g.gestured h.sound hand
    generalize (g.apply hand c).2 = r at hg ho
    cases hg with
    | left => rfl
    | changed _ _ hc => cases ho.symm.trans hc
  changed hand g ho := by
    have hg := g.gestured h.sound hand
    generalize (g.apply hand c).2 = r at hg ho
    cases hg with
    | left hl => cases hl.symm.trans ho
    | changed first more _ _ hr he => exact ⟨hr, first, more, he⟩
  released hand g := congrArg Hand.carried (g.hand_empty hand c)
  attached kind slot place p hp hfits :=
    ⟨_, congrArg Prod.snd (attach_of_ok (checkAttach_hatched h.sound hp hfits p))⟩
  connected kind head p hconn hcheck := by
    obtain ⟨c', hr⟩ := attachConnector_instantiate h.sound hconn hcheck p
    exact congrArg Prod.snd hr

theorem all_or_nothing_branching :
    let c := Edit.run (withBounds ⟨0, 0, 1, 1⟩)
      [.instantiate .ifBranch .origin, .instantiate .elseBranch .origin, .attachConnector 2 1,
        .instantiate .elseBranch .origin]
    ((Edit.attach 1 ⟨2, 0⟩).apply c).2 = .error (.cycle 1) ∧
      ((Edit.attachConnector 3 1).apply c).2 = .error (.duplicateElse 1) ∧
      c.Reachable ∧ c.AllOrNothing :=
  ⟨by decide, by decide, Reachable.run (.start _) _,
    Reachable.all_or_nothing (Reachable.run (.start _) _)⟩

end Canvas
end BlockCanvas
