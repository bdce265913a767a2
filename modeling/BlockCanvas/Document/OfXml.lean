import BlockCanvas.Document.Build
import BlockCanvas.Xml.Basic

/-!
Reading XML workspaces. A slot is a body if it says so or holds several blocks; the text of a value
slot is its literal.
-/
namespace BlockCanvas.Document

open Xml (Node)

def numberAt (attributes : List (String × String)) (key : String) :
    Except DocumentError (Option Float) :=
  match attributes.lookup key with
  | none => .ok none
  | some text =>
    match Decimal.floatOfText? (Text.trimmed text) with
    | some x => .ok (some x)
    | none => .error (.notANumber key text)

def captionOfElement (attributes : List (String × String)) : Except DocumentError Caption := do
  let text ← match attributes.lookup "kind" with
    | some text => .ok text
    | none => .error .noKindAttribute
  let kind ← match Kind.ofText? text with
    | some kind => .ok kind
    | none => .error (.unknownKind text)
  let operator ← match attributes.lookup "operator" with
    | none => .ok none
    | some text =>
      match Operator.ofText? text with
      | some op => .ok (some op)
      | none => .error (.unknownOperator text)
  let x ← numberAt attributes "x"
  let y ← numberAt attributes "y"
  return {
    kind
    name := attributes.lookup "name"
    operator
    override := attributes.lookup "literal"
    position := ⟨x.getD 0, y.getD 0⟩ }

def isBlockElement : Node → Bool
  | .element name _ _ => name == "block"
  | .text _ => false

def isBody (attributes : List (String × String)) (children : List Node) : Bool :=
  attributes.lookup "shape" == some "statement" || (children.filter isBlockElement).length > 1

mutual
def outlineOfElement : Node → Except DocumentError Outline
  | .text _ => .error .noKindAttribute
  | .element _ attributes children => do
    let given ← captionOfElement attributes
    let (slots, chain) ← partsOf given.kind children
    return .node given slots chain
def partsOf (kind : Kind) :
    List Node → Except DocumentError (List (Slot Outline) × List Outline)
  | [] => .ok ([], [])
  | .text _ :: nodes => partsOf kind nodes
  | .element name attributes children :: nodes =>
    if name == "slot" then do
      let slotName ← match attributes.lookup "name" with
        | some slotName => .ok slotName
        | none => .error (.namelessSlot kind)
      let content ←
        if isBody attributes children then do pure (.body (← linesOf slotName children))
        else do
          let child ← firstBlockOf children
          pure (.value child (Text.trimmed (Xml.textOf children)))
      let (slots, chain) ← partsOf kind nodes
      return (⟨slotName, content⟩ :: slots, chain)
    else if name == "chain" then do
      let connectors ← blockElementsOf children
      let (slots, chain) ← partsOf kind nodes
      return (slots, connectors ++ chain)
    else .error (.unexpectedInBlock name kind)
def linesOf (slotName : String) : List Node → Except DocumentError (List (Entry Outline))
  | [] => .ok []
  | .text _ :: nodes => linesOf slotName nodes
  | .element name attributes children :: nodes =>
    if name == "block" then do
      let block ← outlineOfElement (.element name attributes children)
      let entries ← linesOf slotName nodes
      return .block block :: entries
    else if name == "line" then do
      let entries ← linesOf slotName nodes
      return .line (Xml.textOf children) :: entries
    else .error (.unexpectedInBody name slotName)
def firstBlockOf : List Node → Except DocumentError (Option Outline)
  | [] => .ok none
  | .text _ :: nodes => firstBlockOf nodes
  | .element name attributes children :: nodes =>
    if name == "block" then do return some (← outlineOfElement (.element name attributes children))
    else firstBlockOf nodes
/-- The blocks among elements, of a chain or of the workspace; others are passed over. -/
def blockElementsOf : List Node → Except DocumentError (List Outline)
  | [] => .ok []
  | .text _ :: nodes => blockElementsOf nodes
  | .element name attributes children :: nodes =>
    if name == "block" then do
      let connector ← outlineOfElement (.element name attributes children)
      let connectors ← blockElementsOf nodes
      return connector :: connectors
    else blockElementsOf nodes
end

def ofXml : Node → Except DocumentError Document
  | .text _ => .error .notXml
  | .element name attributes children => do
    if name != "canvas" then .error (.wrongRoot name)
    else
      let width ← numberAt attributes "width"
      let height ← numberAt attributes "height"
      let bounds := match width, height with
        | some w, some h => some ⟨0, 0, w, h⟩
        | _, _ => none
      let blocks ← blockElementsOf children
      return { bounds, discardZone := none, blocks }

end BlockCanvas.Document

namespace BlockCanvas.Canvas

def ofXml (root : Xml.Node) : Except DocumentError Canvas := do
  (← Document.ofXml root).build

def ofXmlBytes (xml : Xml.Codec) (bytes : List UInt8) : Except DocumentError Canvas :=
  match xml.read bytes with
  | none => .error .notXml
  | some root => ofXml root

end BlockCanvas.Canvas
