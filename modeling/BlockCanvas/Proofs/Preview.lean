import BlockCanvas.Proofs.Gestures
import BlockCanvas.Proofs.Verdict
import BlockCanvas.Session

/-!
The preview of a session. Every gesture is a run of edits, so the canvas of a session is one that edits
lead to; a change of it leaves an event behind, so the preview is never that of an earlier canvas.
-/
namespace BlockCanvas

/-! ### Gestures are edits -/

namespace Canvas
variable {c c' : Canvas}

def Edited (c c' : Canvas) : Prop :=
  ∃ edits, c' = Edit.run c edits

namespace Edited

theorem refl (c : Canvas) : c.Edited c :=
  ⟨[], rfl⟩

theorem edit (c : Canvas) (e : Edit) : c.Edited (e.apply c).1 :=
  ⟨[e], rfl⟩

theorem reachable (hc : c.Reachable) (h : c.Edited c') : c'.Reachable := by
  obtain ⟨edits, rfl⟩ := h
  exact hc.run edits

theorem frame (hc : c.Sound none) (h : c.Edited c') :
    c'.bounds = c.bounds ∧ c'.discardZone = c.discardZone := by
  obtain ⟨edits, rfl⟩ := h
  induction edits generalizing c with
  | nil => exact ⟨rfl, rfl⟩
  | cons e edits ih =>
    have hstep := e.step hc
    have hkept : (e.apply c).1.bounds = c.bounds ∧ (e.apply c).1.discardZone = c.discardZone := by
      generalize e.apply c = r at hstep
      cases hstep with
      | refused => exact ⟨rfl, rfl⟩
      | committed _ first more _ hset =>
        simp only [setting, Prod.mk.injEq] at hset
        exact hset.2.2
    have hrest := ih (hstep.sound hc)
    exact ⟨hrest.1.trans hkept.1, hrest.2.trans hkept.2⟩

end Edited

theorem drainEvents_snd (h : c.events = []) : c.drainEvents.2 = c := by
  rw [drainEvents, ← h]

end Canvas

theorem Drag.End.edited {c : Canvas} {r : Canvas × Outcome} (h : Drag.End c r) : c.Edited r.1 := by
  cases h with
  | left _ => exact .refl c
  | @moved c' id slot evicted hok =>
    exact ⟨[.attach id slot], by simp [Canvas.Edit.run, Canvas.Edit.apply, Canvas.settled, hok]⟩
  | @created c' kind id slot evicted hok =>
    exact ⟨[.instantiateInto kind slot],
      by simp [Canvas.Edit.run, Canvas.Edit.apply, Canvas.settled, hok]⟩
  | @joined c' id head hok =>
    exact ⟨[.attachConnector id head], by simp [Canvas.Edit.run, Canvas.Edit.apply, hok]⟩
  | @hung c' kind p head _ hok =>
    exact ⟨[.instantiate kind p, .attachConnector c.nextId head],
      by simp [Canvas.Edit.run, Canvas.Edit.apply, hok]⟩
  | @freed c' id p hok =>
    exact ⟨[.detachToFree id p], by simp [Canvas.Edit.run, Canvas.Edit.apply, hok]⟩
  | @placed kind p _ => exact ⟨[.instantiate kind p], rfl⟩
  | @discarded c' id removed hok =>
    exact ⟨[.discard id], by simp [Canvas.Edit.run, Canvas.Edit.apply, Canvas.settled, hok]⟩

theorem Gesture.edited {c : Canvas} (hc : c.Sound none) (h : Hand) (g : Gesture) :
    c.Edited (g.apply h c).2.1 :=
  (g.ends hc h).edited

/-! ### The session -/

namespace Grading

theorem exists_check {m : Type → Type} [Monad m] [LawfulMonad m] (c : Canvas) (r : Requirements)
    (run : Interpreter m) (o : Python.Options) :
    ∃ graded : m (Except CheckError { report : Report // report.source = (c.program o).source }),
      check c r run o = Except.map Subtype.val <$> graded := by
  cases hr : r.resolved with
  | error e =>
    refine ⟨pure (.error e), ?_⟩
    rw [check, hr, map_pure]
    rfl
  | ok required =>
    let source := (c.program o).source
    refine ⟨(fun answer => (answer.mapError CheckError.interpreter).map fun output =>
      ⟨report c r.expected required source output, rfl⟩) <$> run source, ?_⟩
    rw [check_of_resolved c hr, Functor.map_map]
    refine congrArg (· <$> run source) (funext fun answer => ?_)
    cases answer <;> rfl

end Grading

namespace Session
variable {s : Session} {c : Canvas}

inductive Operation where
  | subscribe
  | beginTransfer (t : Transfer)
  | cancelTransfer
  | drop (p : Point Float)
  | activate (id : BlockId)
  | discard (id : BlockId)
  | attachConnector (id : BlockId)
  | setLiteral (slot : SlotId) (text : String)
  | typeLine (slot : SlotId) (text : String)
  | removeLine (slot : SlotId) (index : Nat)
  | setName (id : BlockId) (name : String)
  | setOperator (id : BlockId) (op : Operator)
  | takeNotices

def Operation.apply (s : Session) : Operation → Session
  | .subscribe => s.subscribe
  | .beginTransfer t => s.beginTransfer t
  | .cancelTransfer => s.cancelTransfer
  | .drop p => (s.dropAt p).1
  | .activate id => (s.activate id).1
  | .discard id => (s.discard id).1
  | .attachConnector id => (s.attachConnector id).1
  | .setLiteral slot text => (s.setLiteral slot text).1
  | .typeLine slot text => (s.typeLine slot text).1
  | .removeLine slot index => (s.removeLine slot index).1
  | .setName id name => (s.setName id name).1
  | .setOperator id op => (s.setOperator id op).1
  | .takeNotices => s.takeNotices.2

def run (s : Session) (ops : List Operation) : Session :=
  ops.foldl Operation.apply s

structure Coherent (s : Session) : Prop where
  reachable : s.canvas.Reachable
  taken : s.canvas.events = []
  current : s.preview = s.canvas.program s.options

theorem coherent_start (h : c.Reachable) (o : Python.Options) : (start c o).Coherent :=
  ⟨h.drain, rfl, rfl⟩

inductive Refreshed (s : Session) : Session → Prop where
  | quiet (hnone : s.canvas.events = []) : Refreshed s { s with canvas := s.canvas.drainEvents.2 }
  | same (hsome : s.canvas.events ≠ [])
    (hsame : (s.canvas.drainEvents.2.program s.options).source = s.preview.source) :
    Refreshed s { s with
      canvas := s.canvas.drainEvents.2, preview := s.canvas.drainEvents.2.program s.options }
  | told (hsome : s.canvas.events ≠ [])
    (hnew : (s.canvas.drainEvents.2.program s.options).source ≠ s.preview.source) :
    Refreshed s { s with
      canvas := s.canvas.drainEvents.2, preview := s.canvas.drainEvents.2.program s.options
      listeners := notify s.canvas.drainEvents.2.revision (s.canvas.drainEvents.2.program s.options)
        s.listeners }

theorem refreshed (s : Session) : s.Refreshed s.refresh := by
  unfold refresh
  dsimp only
  split
  case isTrue hnone => exact .quiet (List.isEmpty_iff.1 hnone)
  case isFalse hsome =>
    have hsome : s.canvas.events ≠ [] := fun h => hsome (List.isEmpty_iff.2 h)
    split
    case isTrue hsame => exact .same hsome (beq_iff_eq.1 hsame)
    case isFalse hnew => exact .told hsome fun h => hnew (beq_iff_eq.2 h)

theorem canvas_refresh (s : Session) : s.refresh.canvas = s.canvas.drainEvents.2 := by
  have hs := s.refreshed
  generalize s.refresh = s' at hs
  cases hs <;> rfl

theorem options_refresh (s : Session) : s.refresh.options = s.options := by
  have hs := s.refreshed
  generalize s.refresh = s' at hs
  cases hs <;> rfl

theorem preview_refresh (h : s.canvas.events = [] → s.preview = s.canvas.program s.options) :
    s.refresh.preview = s.canvas.drainEvents.2.program s.options := by
  have hs := s.refreshed
  generalize s.refresh = s' at hs
  cases hs with
  | quiet hnone =>
    rw [Canvas.drainEvents_snd hnone]
    exact h hnone
  | same => rfl
  | told => rfl

structure Follows (s s' : Session) : Prop where
  coherent : s'.Coherent
  options : s'.options = s.options
  bounds : s'.canvas.bounds = s.canvas.bounds
  discardZone : s'.canvas.discardZone = s.canvas.discardZone

namespace Coherent

theorem idle (h : s.Coherent) {s' : Session} (hc : s'.canvas = s.canvas)
    (hp : s'.preview = s.preview) (ho : s'.options = s.options) : s.Follows s' where
  coherent := ⟨hc ▸ h.reachable, by rw [hc, h.taken], by rw [hp, hc, ho, h.current]⟩
  options := ho
  bounds := by rw [hc]
  discardZone := by rw [hc]

theorem refresh (h : s.Coherent) (s' : Session) (hp : s'.preview = s.preview)
    (ho : s'.options = s.options) (hedit : s.canvas.Edited s'.canvas)
    (hq : s'.canvas = s.canvas ∨ s'.canvas.events ≠ []) : s.Follows s'.refresh where
  coherent := by
    have hold : s'.canvas.events = [] → s'.preview = s'.canvas.program s'.options := by
      intro he
      rcases hq with hc | hne
      · rw [hp, ho, hc, h.current]
      · exact absurd he hne
    refine ⟨?_, ?_, ?_⟩
    · rw [canvas_refresh]
      exact (hedit.reachable h.reachable).drain
    · rw [canvas_refresh]
      rfl
    · rw [preview_refresh hold, canvas_refresh, options_refresh]
  options := (options_refresh s').trans ho
  bounds := by
    rw [canvas_refresh]
    exact (hedit.frame h.reachable.sound).1
  discardZone := by
    rw [canvas_refresh]
    exact (hedit.frame h.reachable.sound).2

theorem settle (h : s.Coherent) (g : Gesture) :
    s.Follows (s.settle (g.apply s.hand s.canvas)).1 := by
  let s' : Session :=
    { s with
      hand := (g.apply s.hand s.canvas).1, canvas := (g.apply s.hand s.canvas).2.1,
      notices := s.notices ++ (g.apply s.hand s.canvas).2.2.notice?.toList }
  refine h.refresh s' rfl rfl (g.edited h.reachable.sound s.hand) ?_
  dsimp only [s']
  have hg := g.gestured h.reachable.sound s.hand
  generalize (g.apply s.hand s.canvas).2 = r at hg
  cases hg with
  | left => exact Or.inl rfl
  | changed first more _ _ _ he => exact Or.inr (by simp [he])

theorem edited (h : s.Coherent) (e : Canvas.Edit) :
    s.Follows (s.edited (e.apply s.canvas)).1 := by
  let s' : Session := { s with canvas := (e.apply s.canvas).1 }
  refine h.refresh s' rfl rfl (.edit s.canvas e) ?_
  dsimp only [s']
  have hstep := e.step h.reachable.sound
  generalize e.apply s.canvas = r at hstep
  cases hstep with
  | refused => exact Or.inl rfl
  | committed _ first more _ hset =>
    simp only [Canvas.setting, Prod.mk.injEq] at hset
    exact Or.inr (by simp [hset.2.1])

theorem step (h : s.Coherent) (op : Operation) : s.Follows (op.apply s) := by
  cases op with
  | subscribe => exact h.idle rfl rfl rfl
  | beginTransfer t => exact h.idle rfl rfl rfl
  | cancelTransfer => exact h.idle rfl rfl rfl
  | drop p => exact h.settle (.drop p)
  | activate id => exact h.settle (.activate id)
  | discard id => exact h.settle (.discard id)
  | attachConnector id => exact h.settle (.attachConnector id)
  | setLiteral slot text => exact h.edited (.setLiteral slot text)
  | typeLine slot text => exact h.edited (.pushLine slot text)
  | removeLine slot index => exact h.edited (.removeLine slot index)
  | setName id name => exact h.edited (.setName id name)
  | setOperator id op => exact h.edited (.setOperator id op)
  | takeNotices => exact h.idle rfl rfl rfl

theorem run (h : s.Coherent) (ops : List Operation) : s.Follows (s.run ops) := by
  induction ops generalizing s with
  | nil => exact h.idle rfl rfl rfl
  | cons op ops ih =>
    have hstep := h.step op
    have hrest := ih hstep.coherent
    exact ⟨hrest.coherent, hrest.options.trans hstep.options, hrest.bounds.trans hstep.bounds,
      hrest.discardZone.trans hstep.discardZone⟩

end Coherent

structure UpToDate (s : Session) (o : Python.Options) : Prop where
  options : s.options = o
  preview : s.preview = s.canvas.program o
  taken : s.canvas.events = []
  graded : ∀ {m : Type → Type} [Monad m] [LawfulMonad m] (r : Grading.Requirements)
    (run : Grading.Interpreter m),
    ∃ graded : m (Except Grading.CheckError
        { report : Grading.Report // report.source = s.preview.source }),
      s.check r run = Except.map Subtype.val <$> graded

end Session

/-- After any operations, whatever came of them, the preview is the program of the canvas. -/
theorem Canvas.Reachable.preview_run {c : Canvas} (h : c.Reachable) (o : Python.Options)
    (ops : List Session.Operation) : ((Session.start c o).run ops).UpToDate o := by
  have hrun := (Session.coherent_start h o).run ops
  generalize (Session.start c o).run ops = s at hrun
  obtain rfl : s.options = o := hrun.options
  have hp := hrun.coherent.current
  refine ⟨rfl, hp, hrun.coherent.taken, fun r run => ?_⟩
  rw [hp]
  exact Grading.exists_check s.canvas r run s.options

theorem Canvas.preview_run_dragged :
    let c := Canvas.Edit.run .empty
      [.instantiate .whileLoop .origin, .instantiate .assignment ⟨400, 0⟩]
    let ops : List Session.Operation :=
      [.beginTransfer (.template .print), .drop ⟨40, 45⟩, .setLiteral ⟨3, 0⟩ "y",
        .beginTransfer (.template .operation), .drop ⟨900, 900⟩, .setName 2 "y",
        .beginTransfer (.existing 2), .drop ⟨-1, 0⟩, .activate 3]
    let s := (Session.start c { indentWidth := 2 }).run ops
    s.preview.source = "while False:\n  pass\ny = None\nprint(y)\n" ∧ c.Reachable ∧
      s.UpToDate { indentWidth := 2 } := by
  intro c ops s
  have hc : c.Reachable := Reachable.run (.start _) _
  exact ⟨by decide +kernel, hc, Canvas.Reachable.preview_run hc { indentWidth := 2 } ops⟩

end BlockCanvas
