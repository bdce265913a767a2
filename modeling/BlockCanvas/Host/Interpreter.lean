import BlockCanvas.Grading.Report
import BlockCanvas.Host.Files

/-!
Interpreters on a host: a program is written to a directory of its own, the interpreter runs on it with
nothing to read, and what it prints is kept up to a limit of bytes and of time. What the operating system
does is given (`System`); the directory is gone when the run is over.
-/
namespace BlockCanvas.Host

inductive Mishap where
  | poll (t : Trouble)
  | reap (t : Trouble)
  | read (t : Trouble)
  | readerPanicked
  deriving DecidableEq, Repr

def Mishap.text : Mishap → String
  | .poll t => "Failed to poll interpreter: " ++ t.text
  | .reap t => "Failed to reap interpreter: " ++ t.text
  | .read t => "Failed to read interpreter output: " ++ t.text
  | .readerPanicked => "output reader panicked"

structure Execution where
  timedOut : Except Mishap Bool
  stdout : Except Mishap Flow
  stderr : Except Mishap Flow
  files : Files

structure System where
  scratch : Files → Except Trouble (Path × Files)
  /-- Starts a program with arguments in a directory and stops it after some milliseconds. -/
  run : String → List String → Path → Nat → Files → Except Trouble Execution

structure Interpreter where
  program : String
  args : List String := []
  isolated : Bool := true
  timeout : Nat := 5000
  limit : Nat := 1048576
  deriving DecidableEq, Repr

namespace Interpreter

def arguments (i : Interpreter) (script : Path) : List String :=
  (if i.isolated then ["-I"] else []) ++ i.args ++ [Files.written script]

def keep (limit : Nat) (f : Flow) : Bytes × Bool :=
  let data := (f.unroll (limit + 1)).data
  (data.take limit, limit < data.length)

def stopNotice (timeout : Nat) : String :=
  "TimeoutError: program exceeded " ++ toString timeout ++ " ms and was stopped\n"

/-- The notice that a program was stopped stands on a line of its own. -/
def withStopNotice (timeout : Nat) (stderr : String) : String :=
  (if stderr.isEmpty || stderr.endsWith '\n' then stderr else stderr ++ "\n") ++ stopNotice timeout

def capture (i : Interpreter) (e : Execution) : Except Mishap Grading.Capture := do
  let timedOut ← e.timedOut
  let (out, outCut) := keep i.limit (← e.stdout)
  let (err, errCut) := keep i.limit (← e.stderr)
  let stderr := Text.lossy err
  return {
    stdout := Text.lossy out
    stderr := if timedOut then withStopNotice i.timeout stderr else stderr
    timedOut
    truncated := outCut || errCut }

def unavailable (i : Interpreter) (t : Trouble) : Grading.InterpreterError :=
  .unavailable ("Failed to start '" ++ i.program ++
    "'. Ensure it is installed or pass --python: " ++ t.text)

/-- Runs an interpreter on a program; the files stay as the run leaves them. -/
def execute (system : System) (i : Interpreter) : Grading.Interpreter (StateM Files) := fun source => do
  match system.scratch (← get) with
  | .error t => return .error (.io ("Failed to create scratch directory: " ++ t.text))
  | .ok (directory, files) =>
    let script := directory ++ ["main.py"]
    match files.write [] (Files.written script) (Text.utf8 source) false with
    | .error t => return .error (.io ("Failed to write '" ++ Files.written script ++ "': " ++ t.text))
    | .ok files =>
      match system.run i.program (i.arguments script) directory i.timeout files with
      | .error t => return .error (i.unavailable t)
      | .ok execution =>
        set (execution.files.remove directory)
        match i.capture execution with
        | .error mishap => return .error (.io mishap.text)
        | .ok capture => return .ok capture

end Interpreter
end BlockCanvas.Host
