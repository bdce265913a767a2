import BlockCanvas.Block.Basic

/-!
Why an edit of a canvas is refused, and how a refusal reads.
-/
namespace BlockCanvas

inductive Refusal where
  | unknownBlock (id : BlockId)
  | unknownSlot (slot : SlotId)
  | rejected (kind : Kind) (place : Place)
  | cycle (id : BlockId)
  | notAConnector (id : BlockId)
  | notAChain (id : BlockId)
  | duplicateElse (head : BlockId)
  | notAValueSlot (slot : SlotId)
  | notABody (slot : SlotId)
  | unknownEntry (slot : SlotId) (index : Nat)
  | nothingDragged
  deriving DecidableEq, Repr

def BlockId.text (id : BlockId) : String :=
  "#" ++ toString id

def SlotId.text (slot : SlotId) : String :=
  "Slot " ++ toString slot.index ++ " of block " ++ BlockId.text slot.host

def Place.text : Place → String
  | .canvas => "on the canvas"
  | .slot host _ => "into a '" ++ host.name ++ "' block"

def Refusal.message : Refusal → String
  | .unknownBlock id => "Block " ++ id.text ++ " does not exist."
  | .unknownSlot slot => slot.text ++ " does not exist."
  | .rejected kind place => "Can't drop a '" ++ kind.name ++ "' block " ++ place.text ++ "."
  | .cycle id => "Can't drop block " ++ id.text ++ " inside itself."
  | .notAConnector id => "Block " ++ id.text ++ " is not an elif/else connector."
  | .notAChain id => "Block " ++ id.text ++ " is not an if block."
  | .duplicateElse head => "If block " ++ head.text ++ " already has an else branch."
  | .notAValueSlot slot => slot.text ++ " does not take a typed value."
  | .notABody slot => slot.text ++ " is not a statement body."
  | .unknownEntry slot index =>
    slot.text ++ " has no typed line at position " ++ toString index ++ "."
  | .nothingDragged => "Nothing is being dragged."

end BlockCanvas
