import BlockCanvas.Canvas.Drag
import BlockCanvas.Grading.Report

/-!
An editing session: a canvas, the hand over it, and a preview of its program that follows every
committed change. Listeners are called when a change changes the source; refused drops leave notices.
A session reads nothing from its listeners, so a listener is kept as the calls that were made to it.
-/
namespace BlockCanvas

structure Delivery where
  revision : Nat
  program : Python.Program
  deriving DecidableEq, Repr

structure Listener where
  calls : List Delivery := []
  deriving DecidableEq, Repr

def Listener.call (l : Listener) (revision : Nat) (program : Python.Program) : Listener :=
  { calls := l.calls ++ [⟨revision, program⟩] }

structure Session where
  canvas : Canvas
  hand : Hand := {}
  options : Python.Options
  preview : Python.Program
  listeners : List Listener := []
  notices : List String := []

namespace Session

def start (canvas : Canvas) (options : Python.Options) : Session :=
  let canvas := canvas.drainEvents.2
  { canvas, options, preview := canvas.program options }

def subscribe (s : Session) : Session :=
  { s with listeners := s.listeners ++ [{}] }

def notify (revision : Nat) (program : Python.Program) : List Listener → List Listener
  | [] => []
  | l :: rest => l.call revision program :: notify revision program rest

/-- Takes the queued events. If there were any, the preview is made anew; if its source is another,
the listeners are called. -/
def refresh (s : Session) : Session :=
  let (events, canvas) := s.canvas.drainEvents
  if events.isEmpty then { s with canvas }
  else
    let next := canvas.program s.options
    if next.source == s.preview.source then { s with canvas, preview := next }
    else
      { s with
        canvas, preview := next, listeners := notify canvas.revision next s.listeners }

def settle (s : Session) (result : Hand × Canvas × Outcome) : Session × Outcome :=
  let (hand, canvas, outcome) := result
  let moved := { s with hand, canvas, notices := s.notices ++ outcome.notice?.toList }
  (moved.refresh, outcome)

def beginTransfer (s : Session) (t : Transfer) : Session :=
  { s with hand := s.hand.take t }

def cancelTransfer (s : Session) : Session :=
  { s with hand := .empty }

def dropAt (s : Session) (p : Point Float) : Session × Outcome :=
  s.settle (s.hand.drop s.canvas p)

def activate (s : Session) (id : BlockId) : Session × Outcome :=
  s.settle (s.hand.activate s.canvas id)

def discard (s : Session) (id : BlockId) : Session × Outcome :=
  s.settle (s.hand.discard s.canvas id)

def attachConnector (s : Session) (id : BlockId) : Session × Outcome :=
  s.settle (s.hand.attachConnector s.canvas id)

def edited {α : Type} (s : Session) (result : Canvas × Except Refusal α) :
    Session × Except Refusal α :=
  ({ s with canvas := result.1 }.refresh, result.2)

def setLiteral (s : Session) (slot : SlotId) (text : String) : Session × Except Refusal Unit :=
  s.edited (s.canvas.setLiteral slot text)

def typeLine (s : Session) (slot : SlotId) (text : String) : Session × Except Refusal Nat :=
  s.edited (s.canvas.pushLine slot text)

def removeLine (s : Session) (slot : SlotId) (index : Nat) : Session × Except Refusal String :=
  s.edited (s.canvas.removeLine slot index)

def setName (s : Session) (id : BlockId) (name : String) : Session × Except Refusal Unit :=
  s.edited (s.canvas.setName id name)

def setOperator (s : Session) (id : BlockId) (op : Operator) : Session × Except Refusal Unit :=
  s.edited (s.canvas.setOperator id op)

def takeNotices (s : Session) : List String × Session :=
  (s.notices, { s with notices := [] })

def check {m : Type → Type} [Monad m] (s : Session) (r : Grading.Requirements)
    (run : Grading.Interpreter m) : m (Except Grading.CheckError Grading.Report) :=
  Grading.check s.canvas r run s.options

end Session
end BlockCanvas
