import BlockCanvas.Document.OfJson
import BlockCanvas.Document.ToJson
import BlockCanvas.Grading.Report
import BlockCanvas.Library

/-!
Submission bundles: a canvas, the program generated from it and perhaps a grading report, with a
manifest that holds the digest of the program. A bundle is accepted only if its program is the one
that its manifest and its canvas stand for.
-/
namespace BlockCanvas

structure Submission where
  canvas : Canvas
  source : String
  digest : String
  report : Option Json

inductive BundleError where
  | notABundle
  | missing (entry : String)
  | unreadable (entry : String)
  | invalidManifest
  | wrongFormat (found : String)
  | unsupportedVersion (found : Nat)
  | noDigest
  | digestMismatch (manifest actual : String)
  | invalidCanvas (error : DocumentError)
  | sourceMismatch
  | invalidReport

namespace Submission

def format : String := "blockcode-submission"

def version : Nat := 1

def manifestName : String := "manifest.json"
def canvasName : String := "canvas.json"
def sourceName : String := "main.py"
def reportName : String := "report.json"

end Submission

namespace BundleError

def texts : BundleError → List String
  | .notABundle => ["Input is not a valid submission bundle."]
  | .missing entry => ["Missing '" ++ entry ++ "' in bundle.", Fault.zip.text]
  | .unreadable entry => ["Failed reading '" ++ entry ++ "' from bundle.", Fault.io.text]
  | .invalidManifest => ["Invalid manifest.json in bundle.", Fault.json.text]
  | .wrongFormat found => ["Invalid bundle format '" ++ found ++ "'."]
  | .unsupportedVersion found =>
    ["Unsupported bundle version " ++ toString found ++ " (expected " ++
      toString Submission.version ++ ")."]
  | .noDigest => ["manifest.json is missing 'digest'."]
  | .digestMismatch manifest actual =>
    ["Bundle digest mismatch: manifest says " ++ manifest ++ ", main.py hashes to " ++ actual ++ "."]
  | .invalidCanvas error => "Invalid canvas.json in bundle." :: error.texts
  | .sourceMismatch =>
    ["main.py in bundle does not match the source generated from canvas.json."]
  | .invalidReport => ["Invalid report.json in bundle.", Fault.json.text]

def message (error : BundleError) : String :=
  ": ".intercalate error.texts

def refusal? : BundleError → Option Refusal
  | .invalidCanvas error => error.refusal?
  | _ => none

end BundleError

namespace Submission

variable (library : Library)

def manifest (c : Canvas) (program : Python.Program) (hasReport : Bool) : Json :=
  .object
    [("blocks", .int c.size),
      ("digest", .string (library.digest program.source)),
      ("format", .string format),
      ("has_report", .bool hasReport),
      ("variables", .ofStrings program.names),
      ("version", .int version)]

def entries (c : Canvas) (report : Option Grading.Report) : List (String × String) :=
  let program := c.program {}
  [(manifestName, library.json.write (manifest library c program report.isSome)),
    (canvasName, c.toJsonText library.json),
    (sourceName, program.source)] ++
    (report.map fun r => (reportName, library.json.write r.toJson)).toList

def pack (c : Canvas) (report : Option Grading.Report) : Zip.Archive :=
  (entries library c report).map fun e => (e.1, Text.utf8 e.2)

def textOf (archive : Zip.Archive) (name : String) : Except BundleError String :=
  match Zip.entry? archive name with
  | none => .error (.missing name)
  | some data =>
    match Text.strict? data with
    | some text => .ok text
    | none => .error (.unreadable name)

/-- The digest that a manifest of the right format and version gives. -/
def digestOf (manifest : Json) : Except BundleError String :=
  let found := ((manifest.member? "format").bind Json.string?).getD ""
  let number := ((manifest.member? "version").bind Json.nat?).getD 0
  if found != format then .error (.wrongFormat found)
  else if number != version then .error (.unsupportedVersion number)
  else
    match (manifest.member? "digest").bind Json.string? with
    | some digest => .ok digest
    | none => .error .noDigest

def reportOf (archive : Zip.Archive) (manifest : Json) : Except BundleError (Option Json) :=
  if ((manifest.member? "has_report").bind Json.bool?).getD false then do
    let text ← textOf archive reportName
    match library.json.read text with
    | some report => return some report
    | none => .error .invalidReport
  else .ok none

def unpack (archive : Zip.Archive) : Except BundleError Submission := do
  let manifestText ← textOf archive manifestName
  let canvasText ← textOf archive canvasName
  let source ← textOf archive sourceName
  let manifest ← match library.json.read manifestText with
    | some manifest => .ok manifest
    | none => .error .invalidManifest
  let digest ← digestOf manifest
  let actual := library.digest source
  if actual != digest then .error (.digestMismatch digest actual)
  let canvas ← match Canvas.ofJsonText library.json canvasText with
    | .ok canvas => .ok canvas
    | .error e => .error (.invalidCanvas e)
  if (canvas.program {}).source != source then .error .sourceMismatch
  let report ← reportOf library archive manifest
  return { canvas, source, digest, report }

def toBytes (c : Canvas) (report : Option Grading.Report) : Bytes :=
  library.zip.encode (pack library c report)

def ofBytes (bytes : Bytes) : Except BundleError Submission :=
  match library.zip.decode? bytes with
  | some archive => unpack library archive
  | none => .error .notABundle

end Submission
end BlockCanvas
