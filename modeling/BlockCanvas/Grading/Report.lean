import BlockCanvas.Grading.Output
import BlockCanvas.Grading.Requirements
import BlockCanvas.Python.Program
import BlockCanvas.Text.Escape

/-!
Grading a canvas: its program is run once, what it prints is compared with what is expected, and the
kinds of its blocks with those required.
-/
namespace BlockCanvas.Grading

/-- What one run printed. `truncated` says that a stream was longer than what is kept of it. -/
structure Capture where
  stdout : String := ""
  stderr : String := ""
  timedOut : Bool := false
  truncated : Bool := false
  deriving DecidableEq, Repr

abbrev Interpreter (m : Type → Type) := String → m (Except InterpreterError Capture)

structure Report where
  passedOutput : Bool
  passedNodes : Bool
  missingNodes : List String
  stdout : String
  stderr : String
  source : String
  timedOut : Bool
  truncated : Bool
  diagnostics : List String
  deriving DecidableEq, Repr

namespace Report

def passed (r : Report) : Bool :=
  r.passedOutput && r.passedNodes

def toJson (r : Report) : Json :=
  .object
    [("diagnostics", .ofStrings r.diagnostics),
      ("missingNodes", .ofStrings r.missingNodes),
      ("passed", .bool r.passed),
      ("passedNodes", .bool r.passedNodes),
      ("passedOutput", .bool r.passedOutput),
      ("source", .string r.source),
      ("stderr", .string r.stderr),
      ("stdout", .string r.stdout),
      ("timedOut", .bool r.timedOut),
      ("truncated", .bool r.truncated)]

def summary (r : Report) : String :=
  (if r.passed then "PASSED" else "FAILED") ++
    String.join (r.diagnostics.map fun line => "\n  - " ++ line)

end Report

def missing (present reported : List Kind) : List (Kind × String) → List String
  | [] => []
  | (kind, name) :: rest =>
    if present.contains kind || reported.contains kind then missing present reported rest
    else name :: missing present (kind :: reported) rest

def diagnose (expected : Option String) (output : Capture) (passedOutput : Bool)
    (missingNodes : List String) : List String :=
  (if output.timedOut then ["The program did not finish before the time limit."] else []) ++
  (if !Text.allBlank output.stderr && !output.timedOut then
    ["The program raised an error while running."] else []) ++
  (if output.truncated then
    ["The program printed too much; the captured output was cut off."] else []) ++
  (match expected with
    | some text =>
      if passedOutput then []
      else ["Expected output " ++ Text.shown (normalOutput text) ++ " but the program printed " ++
        Text.shown (normalOutput output.stdout) ++ "."]
    | none => []) ++
  (if missingNodes.isEmpty then []
    else ["Missing required block(s): " ++ ", ".intercalate missingNodes ++ "."])

def report (c : Canvas) (expected : Option String) (required : List (Kind × String))
    (source : String) (output : Capture) : Report :=
  let passedOutput := match expected with
    | some text => normalOutput output.stdout == normalOutput text
    | none => true
  let missingNodes := missing c.kindsPresent [] required
  { passedOutput
    passedNodes := missingNodes.isEmpty
    missingNodes
    stdout := output.stdout
    stderr := output.stderr
    source
    timedOut := output.timedOut
    truncated := output.truncated
    diagnostics := diagnose expected output passedOutput missingNodes }

/-- Grades a canvas. The program is not run for requirements that name an unknown kind. -/
def check {m : Type → Type} [Monad m] (c : Canvas) (r : Requirements) (run : Interpreter m)
    (o : Python.Options) : m (Except CheckError Report) :=
  match r.resolved with
  | .error e => pure (.error e)
  | .ok required => do
    let source := (c.program o).source
    match ← run source with
    | .error e => return .error (.interpreter e)
    | .ok output => return .ok (report c r.expected required source output)

end BlockCanvas.Grading
