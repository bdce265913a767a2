import BlockCanvas.Document.Build
import BlockCanvas.Json.Printer

/-!
Reading JSON documents. A slot may be written short: a block for a value slot that holds just it, a
scalar for its literal, an array for a body.
-/
namespace BlockCanvas.Document

def version : Nat := 1

/-- A scalar as typed text; what is no scalar stays JSON. -/
def scalarText : Json → String
  | .null => ""
  | .string s => s
  | value => value.compact

def field (value : Json) (name : String) : Except DocumentError Float :=
  match (value.member? name).bind Json.float? with
  | some x => .ok x
  | none => .error (.rectangleLacks name)

def rectOf (value : Json) : Except DocumentError (Rect Float) := do
  let x ← field value "x"
  let y ← field value "y"
  let width ← field value "width"
  let height ← field value "height"
  return ⟨x, y, width, height⟩

def captionOf (members : List (String × Json)) : Except DocumentError Caption := do
  let text ← match (Json.find? "kind" members).bind Json.string? with
    | some text => .ok text
    | none => .error .noKind
  let kind ← match Kind.ofText? text with
    | some kind => .ok kind
    | none => .error (.unknownKind text)
  let operator ← match (Json.find? "operator" members).bind Json.string? with
    | none => .ok none
    | some text =>
      match Operator.ofText? text with
      | some op => .ok (some op)
      | none => .error (.unknownOperator text)
  let coordinate (name : String) : Float := ((Json.find? name members).bind Json.float?).getD 0
  return {
    kind
    name := (Json.find? "name" members).bind Json.string?
    operator
    override := (Json.find? "literal" members).bind Json.string?
    position := ⟨coordinate "x", coordinate "y"⟩ }

def inSlot {α : Type} (name : String) (kind : Kind) :
    Except DocumentError α → Except DocumentError α
  | .ok a => .ok a
  | .error e => .error (.inSlot name kind e)

def literalOf (members : List (String × Json)) : String :=
  ((Json.find? "literal" members).map scalarText).getD ""

mutual
def outlineOf : Json → Except DocumentError Outline
  | .object members => do
    let given ← captionOf members
    let slots ← slotsOf given.kind members
    let chain ← chainOf given.kind members
    return .node given slots chain
  | found => .error (.notABlock found)
def slotsOf (kind : Kind) : List (String × Json) → Except DocumentError (List (Slot Outline))
  | [] => .ok []
  | (key, .object members) :: rest =>
    if key == "slots" then slotMembers kind members else slotsOf kind rest
  | (key, _) :: rest =>
    if key == "slots" then .error (.slotsNotAnObject kind) else slotsOf kind rest
def slotMembers (kind : Kind) : List (String × Json) → Except DocumentError (List (Slot Outline))
  | [] => .ok []
  | (name, value) :: rest => do
    let content ← inSlot name kind (contentOf value)
    let slots ← slotMembers kind rest
    return ⟨name, content⟩ :: slots
def contentOf : Json → Except DocumentError (Content Outline)
  | .array items => do return .body (← entriesOf items)
  | .object members =>
    if (Json.find? "kind" members).isSome then do
      let given ← captionOf members
      let slots ← slotsOf given.kind members
      let chain ← chainOf given.kind members
      return .value (some (.node given slots chain)) ""
    else do return .value (← childOf members) (literalOf members)
  | value => .ok (.value none (scalarText value))
def entriesOf : List Json → Except DocumentError (List (Entry Outline))
  | [] => .ok []
  | .object members :: items => do
    let block ← outlineOf (.object members)
    let entries ← entriesOf items
    return .block block :: entries
  | item :: items => do
    let entries ← entriesOf items
    return .line (scalarText item) :: entries
def childOf : List (String × Json) → Except DocumentError (Option Outline)
  | [] => .ok none
  | (key, value) :: rest =>
    if key == "block" then
      match value with
      | .null => .ok none
      | .object members => do return some (← outlineOf (.object members))
      | found => .error (.notABlock found)
    else childOf rest
def chainOf (kind : Kind) : List (String × Json) → Except DocumentError (List Outline)
  | [] => .ok []
  | (key, .array items) :: rest =>
    if key == "chain" then connectorsOf items else chainOf kind rest
  | (key, .null) :: rest => if key == "chain" then .ok [] else chainOf kind rest
  | (key, _) :: rest =>
    if key == "chain" then .error (.chainNotAnArray kind) else chainOf kind rest
def connectorsOf : List Json → Except DocumentError (List Outline)
  | [] => .ok []
  | item :: items => do
    let connector ← outlineOf item
    let connectors ← connectorsOf items
    return connector :: connectors
end

def blocksOf (index : Nat) : List Json → Except DocumentError (List Outline)
  | [] => .ok []
  | item :: items => do
    let block ← match outlineOf item with
      | .ok block => .ok block
      | .error e => .error (.inBlock index e)
    let blocks ← blocksOf (index + 1) items
    return block :: blocks

def ofJson (value : Json) : Except DocumentError Document := do
  let members ← match value with
    | .object members => .ok members
    | _ => .error .notAnObject
  match (Json.find? "version" members).bind Json.nat? with
  | some n => if n > version then .error (.unsupportedVersion n) else .ok ()
  | none => .ok ()
  let items ← match Json.find? "blocks" members with
    | some (.array items) => .ok items
    | _ => .error .noBlocks
  let bounds ← match Json.find? "bounds" members with
    | none => .ok none
    | some rect => (rectOf rect).map some
  let discardZone ← match Json.find? "discardZone" members with
    | none => .ok none
    | some .null => .ok none
    | some rect => (rectOf rect).map some
  let blocks ← blocksOf 0 items
  return { bounds, discardZone, blocks }

end BlockCanvas.Document

namespace BlockCanvas.Canvas

def ofJson (value : Json) : Except DocumentError Canvas := do
  (← Document.ofJson value).build

def ofJsonText (json : Json.Codec) (text : String) : Except DocumentError Canvas :=
  match json.read text with
  | none => .error .notJson
  | some value => ofJson value

end BlockCanvas.Canvas
