import BlockCanvas.Canvas.Edit
import BlockCanvas.Fault
import BlockCanvas.Json.Printer

/-!
A document before it becomes a canvas: its blocks as written, with what was left out left out, and
the ways in which a document can be wrong.
-/
namespace BlockCanvas

structure Caption where
  kind : Kind
  name : Option String
  operator : Option Operator
  override : Option String
  position : Point Float

inductive Outline where
  | node (caption : Caption) (slots : List (Slot Outline)) (chain : List Outline)

def Outline.caption : Outline → Caption
  | .node caption _ _ => caption

def Outline.kind (o : Outline) : Kind :=
  o.caption.kind

structure Document where
  bounds : Option (Rect Float)
  discardZone : Option (Rect Float)
  blocks : List Outline

inductive DocumentError where
  | notJson
  | notAnObject
  | unsupportedVersion (version : Nat)
  | noBlocks
  | rectangleLacks (field : String)
  | inBlock (index : Nat) (error : DocumentError)
  | notABlock (found : Json)
  | noKind
  | unknownKind (text : String)
  | unknownOperator (text : String)
  | slotsNotAnObject (kind : Kind)
  | inSlot (name : String) (kind : Kind) (error : DocumentError)
  | chainNotAnArray (kind : Kind)
  | notXml
  | wrongRoot (name : String)
  | notANumber (key text : String)
  | noKindAttribute
  | namelessSlot (kind : Kind)
  | unexpectedInBody (element slot : String)
  | unexpectedInBlock (element : String) (kind : Kind)
  | notOnCanvas (kind : Kind)
  | noSuchSlot (kind : Kind) (name : String)
  | wrongShape (name : String) (kind : Kind)
  | notChainable (kind : Kind)
  | refused (refusal : Refusal)

namespace DocumentError

def texts : DocumentError → List String
  | .notJson => ["Canvas document is not valid JSON.", Fault.json.text]
  | .notAnObject => ["Canvas document must be a JSON object."]
  | .unsupportedVersion version =>
    ["Unsupported canvas document version " ++ toString version ++ "."]
  | .noBlocks => ["Canvas document requires a 'blocks' array."]
  | .rectangleLacks field => ["Rectangle is missing numeric '" ++ field ++ "'."]
  | .inBlock index error => ("In top-level block " ++ toString index ++ ".") :: texts error
  | .notABlock found => ["Block entries must be objects, found " ++ found.compact ++ "."]
  | .noKind => ["Block is missing its 'kind'."]
  | .unknownKind text => ["Unknown block kind '" ++ text ++ "'."]
  | .unknownOperator text => ["Unknown operator '" ++ text ++ "'."]
  | .slotsNotAnObject kind => ["'slots' of a '" ++ kind.name ++ "' block must be an object."]
  | .inSlot name kind error =>
    ("In slot '" ++ name ++ "' of a '" ++ kind.name ++ "' block.") :: texts error
  | .chainNotAnArray kind => ["'chain' of a '" ++ kind.name ++ "' block must be an array."]
  | .notXml => ["Invalid XML workspace: " ++ Fault.xml.text]
  | .wrongRoot name => ["XML workspace root must be <canvas>, found <" ++ name ++ ">."]
  | .notANumber key text =>
    ["Attribute " ++ key ++ "='" ++ text ++ "' is not a number."]
  | .noKindAttribute => ["<block> is missing its 'kind' attribute."]
  | .namelessSlot kind => ["<slot> of a '" ++ kind.name ++ "' block has no name."]
  | .unexpectedInBody element slot =>
    ["Unexpected <" ++ element ++ "> inside statement slot '" ++ slot ++ "'."]
  | .unexpectedInBlock element kind =>
    ["Unexpected <" ++ element ++ "> inside a '" ++ kind.name ++ "' block."]
  | .notOnCanvas kind => ["A '" ++ kind.name ++ "' block cannot sit directly on the canvas."]
  | .noSuchSlot kind name =>
    ["A '" ++ kind.name ++ "' block has no slot named '" ++ name ++ "'."]
  | .wrongShape name kind =>
    ["Slot '" ++ name ++ "' of a '" ++ kind.name ++ "' block has the wrong shape in the document."]
  | .notChainable kind => ["Only elif/else blocks can be chained, found '" ++ kind.name ++ "'."]
  | .refused refusal => [refusal.message]

def message (error : DocumentError) : String :=
  ": ".intercalate error.texts

def refusal? : DocumentError → Option Refusal
  | .refused refusal => some refusal
  | .inBlock _ error => refusal? error
  | .inSlot _ _ error => refusal? error
  | _ => none

end DocumentError
end BlockCanvas
