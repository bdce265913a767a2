import BlockCanvas.Canvas.Tree
import BlockCanvas.Json.Basic

/-!
Writing JSON documents. The members of every object come in the order of their keys; what a reader
would fill in by itself is left out.
-/
namespace BlockCanvas

def Rect.toJson (r : Rect Float) : Json :=
  .object
    [("height", .ofFloat r.height), ("width", .ofFloat r.width), ("x", .ofFloat r.x),
      ("y", .ofFloat r.y)]

namespace Tree

def member (key : String) : Option Json → List (String × Json)
  | some value => [(key, value)]
  | none => []

def nameMember (face : Face) : List (String × Json) :=
  if face.name.isEmpty then [] else [("name", .string face.name)]

def blockMembers (face : Face) (position : Option (Point Float)) (chain : List Json)
    (slots : List (String × Json)) : List (String × Json) :=
  (if chain.isEmpty then [] else [("chain", .array chain)]) ++
    [("kind", .string face.kind.name)] ++
    member "literal" (face.override.map .string) ++
    nameMember face ++
    member "operator" (face.operator.map fun op => .string op.name) ++
    [("slots", .ofMembers slots)] ++
    member "x" (position.map fun p => .ofFloat p.x) ++
    member "y" (position.map fun p => .ofFloat p.y)

mutual
/-- A block as JSON; only a free one has its position written. -/
def toJson (position : Option (Point Float)) : Tree → Json
  | .node _ face slots chain =>
    .object (blockMembers face position (chainToJson chain) (slotsToJson slots))
def slotsToJson : List (Slot Tree) → List (String × Json)
  | [] => []
  | ⟨name, .value none literal⟩ :: slots => (name, .string literal) :: slotsToJson slots
  | ⟨name, .value (some child) literal⟩ :: slots =>
    (name, .object [("block", toJson none child), ("literal", .string literal)]) ::
      slotsToJson slots
  | ⟨name, .body entries⟩ :: slots =>
    (name, .array (entriesToJson entries)) :: slotsToJson slots
def entriesToJson : List (Entry Tree) → List Json
  | [] => []
  | .block t :: entries => toJson none t :: entriesToJson entries
  | .line text :: entries => .string text :: entriesToJson entries
def chainToJson : List Tree → List Json
  | [] => []
  | t :: ts => toJson none t :: chainToJson ts
end

end Tree

namespace Canvas

def toJson (c : Canvas) : Json :=
  .object
    [("blocks", .array (c.forest.map fun r => r.tree.toJson (some r.position))),
      ("bounds", c.bounds.toJson),
      ("discardZone", .ofOption Rect.toJson c.discardZone),
      ("version", .int 1)]

def toJsonText (c : Canvas) (json : Json.Codec) : String :=
  json.write c.toJson

end Canvas
end BlockCanvas
