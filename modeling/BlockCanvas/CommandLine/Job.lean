import BlockCanvas.Bundle.Submission
import BlockCanvas.CommandLine.Options
import BlockCanvas.Document.OfXml
import BlockCanvas.Host.Interpreter

/-!
One run of the command line: a canvas is loaded, its program generated and written, run and graded if
asked to, and bundled. A job works on files and texts that it is given; progress goes to standard
error. The packages that read and write the formats are given, and so is the system that runs programs.
-/
namespace BlockCanvas.CommandLine
open Host

inductive Failure where
  | gradingWithoutRun
  | requirementsTwice
  | inputNotFound (path : String)
  | inputUnreadable (path : String)
  | inputNotUtf8 (path : String)
  | invalidXml (path : String) (error : DocumentError)
  | invalidJson (path : String) (error : DocumentError)
  | io
  | requirementsUnreadable (path : String) (trouble : Trouble)
  | notGraded (error : Grading.CheckError)
  | bundleUnwritten (path : String)
  | notPassed

namespace Failure

/-- The texts of a failure, the outermost first. An interpreter's error is named by the grading and
again by itself. -/
def texts : Failure → List String
  | .gradingWithoutRun =>
    ["--expected, --require, --requirements and --report-json require --run."]
  | .requirementsTwice => ["--requirements cannot be combined with --expected or --require."]
  | .inputNotFound path => ["Input file not found: '" ++ path ++ "'."]
  | .inputUnreadable path => ["Failed to read '" ++ path ++ "'.", Fault.io.text]
  | .inputNotUtf8 path => ["Canvas file '" ++ path ++ "' is not UTF-8.", Fault.utf8.text]
  | .invalidXml path error => ("Invalid XML canvas '" ++ path ++ "'.") :: error.texts
  | .invalidJson path error => ("Invalid JSON canvas '" ++ path ++ "'.") :: error.texts
  | .io => [Fault.io.text]
  | .requirementsUnreadable path trouble =>
    ["Failed to read '" ++ path ++ "': " ++ trouble.text ++ "."]
  | .notGraded (.interpreter error) => [error.message, error.message]
  | .notGraded error => [error.message]
  | .bundleUnwritten path => ["Failed to write bundle '" ++ path ++ "'.", Fault.io.text]
  | .notPassed => ["Submission did not pass grading."]

def message (f : Failure) : String :=
  ": ".intercalate f.texts

def refusal? : Failure → Option Refusal
  | .invalidXml _ error => error.refusal?
  | .invalidJson _ error => error.refusal?
  | _ => none

end Failure

structure Desk where
  files : Files
  directory : Path
  stdout : String := ""
  stderr : String := ""
  stage : Nat := 0

abbrev Job := ExceptT Failure (StateM Desk)

namespace Job

def print (text : String) : Job Unit :=
  modify fun d => { d with stdout := d.stdout ++ text }

def printError (text : String) : Job Unit :=
  modify fun d => { d with stderr := d.stderr ++ text }

def filledCells (step total width : Nat) : Nat :=
  (step * width + total / 2) / total

def bar (step total width : Nat) : String :=
  let filled := filledCells step total width
  String.ofList ('[' :: (List.replicate filled '=').take width ++
    List.replicate (width - filled) '-' ++ [']'])

def announce (total : Nat) (label : String) : Job Unit := do
  modify fun d => { d with stage := d.stage + 1 }
  let step := (← get).stage
  printError ("[Blocks] " ++ label ++ "... (" ++ toString step ++ "/" ++ toString total ++ ") " ++
    bar step total 14 ++ "\n")

def write (path : String) (data : Bytes) (failure : Failure) : Job Unit := do
  let d ← get
  match d.files.write d.directory path data false with
  | .ok files => set { d with files }
  | .error _ => throw failure

def ending? (name : String) : Option String :=
  let reversed := name.toList.reverse
  let last := reversed.takeWhile (· != '.')
  match reversed.drop last.length with
  | _ :: _ :: _ => some (String.ofList last.reverse)
  | _ => none

def isXml (name : String) : Bool :=
  (ending? name).any fun ending => Text.lowered ending == "xml"

def locate (path : String) : Job Path := do
  let d ← get
  match d.files.find d.directory path with
  | .ok (found, .file _ _) => return found
  | .ok (found, .program _) => return found
  | _ => throw (.inputNotFound path)

def load (library : Library) (path : Path) : Job Canvas := do
  let written := Files.written path
  match (← get).files.bytes [] written with
  | .error _ => throw (.inputUnreadable written)
  | .ok data =>
    if isXml (path.getLast?.getD "") then
      match Canvas.ofXmlBytes library.xml data with
      | .ok canvas => return canvas
      | .error e => throw (.invalidXml written e)
    else
      match Text.strict? data with
      | none => throw (.inputNotUtf8 written)
      | some text =>
        match Canvas.ofJsonText library.json text with
        | .ok canvas => return canvas
        | .error e => throw (.invalidJson written e)

def requirements (library : Library) (o : Options) : Job Grading.Requirements := do
  match o.requirements with
  | none => return ⟨o.expected, o.required⟩
  | some path =>
    let d ← get
    match d.files.text d.directory path with
    | .error t => throw (.requirementsUnreadable path t)
    | .ok text =>
      match Grading.Requirements.ofText library.json text with
      | .ok r => return r
      | .error e => throw (.notGraded e)

def grade (library : Library) (system : System) (o : Options) (canvas : Canvas) : Job Grading.Report := do
  let r ← requirements library o
  let interpreter : Interpreter := { program := o.interpreter, timeout := o.timeout }
  let d ← get
  let (result, files) := (Grading.check canvas r (interpreter.execute system) {}).run d.files
  set { d with files }
  match result with
  | .error e => throw (.notGraded e)
  | .ok report =>
    print report.stdout
    printError report.stderr
    printError (report.summary ++ "\n")
    return report

def parent (path : String) : String :=
  let names := (Files.names path).filter fun name => name != "" && name != "."
  (if Files.isAbsolute path then "/" else "") ++ "/".intercalate names.dropLast

def writeBundle (library : Library) (path : String) (canvas : Canvas) (report : Option Grading.Report) :
    Job Unit := do
  let d ← get
  match d.files.makeDirectories d.directory (parent path) with
  | .error _ => throw .io
  | .ok files =>
    set { d with files }
    write path (Submission.toBytes library canvas report) (.bundleUnwritten path)

def stages (o : Options) : Nat :=
  3 + (if o.emit.isSome then 1 else 0) + (if o.run then 1 else 0) +
    (if o.reportJson.isSome then 1 else 0) + (if o.bundle.isSome then 1 else 0)

def conflict? (o : Options) : Option Failure :=
  let named := o.expected.isSome || !o.required.isEmpty
  if (named || o.requirements.isSome || o.reportJson.isSome) && !o.run then some .gradingWithoutRun
  else if o.requirements.isSome && named then some .requirementsTwice
  else none

def emitSource (o : Options) (source : String) : Job Unit := do
  match o.emit with
  | some path =>
    announce (stages o) "Writing generated source"
    write path (Text.utf8 source) .io
  | none => if !o.run then print source

def gradeIfAsked (library : Library) (system : System) (o : Options) (canvas : Canvas) :
    Job (Option Grading.Report) := do
  if o.run then
    announce (stages o) "Running and grading"
    return some (← grade library system o canvas)
  else return none

def writeReport (library : Library) (o : Options) (report : Option Grading.Report) : Job Unit := do
  match o.reportJson, report with
  | some path, some graded =>
    announce (stages o) "Writing grading report"
    write path (Text.utf8 (library.json.write graded.toJson)) .io
  | _, _ => pure ()

def bundleIfAsked (library : Library) (o : Options) (canvas : Canvas) (report : Option Grading.Report) :
    Job Unit := do
  match o.bundle with
  | some path =>
    announce (stages o) "Writing submission bundle"
    writeBundle library path canvas report
  | none => pure ()

/-- All of a job. It fails at its end if the program was graded and did not pass. -/
def steps (library : Library) (system : System) (o : Options) : Job Unit := do
  match conflict? o with
  | some failure => throw failure
  | none =>
    announce (stages o) "Resolving input path"
    let path ← locate o.input
    announce (stages o) "Loading canvas"
    let canvas ← load library path
    announce (stages o) "Generating source"
    emitSource o (canvas.program {}).source
    let report ← gradeIfAsked library system o canvas
    writeReport library o report
    bundleIfAsked library o canvas report
    if report.any fun graded => !graded.passed then throw .notPassed

end Job

def perform (library : Library) (system : System) (o : Options) (files : Files) (directory : Path) :
    Option Failure × Desk :=
  let (result, desk) := (Job.steps library system o).run { files, directory }
  (match result with
    | .ok () => none
    | .error failure => some failure, desk)

end BlockCanvas.CommandLine
