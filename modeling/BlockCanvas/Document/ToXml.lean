import BlockCanvas.Canvas.Tree
import BlockCanvas.Decimal.Text
import BlockCanvas.Xml.Basic

/-!
Writing XML workspaces. Attributes come in the order of their names.
-/
namespace BlockCanvas

open Xml (Node)

namespace Tree

def attribute? (key : String) : Option String → List (String × String)
  | some value => [(key, value)]
  | none => []

def blockAttributes (face : Face) (position : Option (Point Float)) : List (String × String) :=
  [("kind", face.kind.name)] ++
    attribute? "literal" face.override ++
    (if face.name.isEmpty then [] else [("name", face.name)]) ++
    attribute? "operator" (face.operator.map Operator.name) ++
    attribute? "x" (position.map fun p => Decimal.floatText p.x) ++
    attribute? "y" (position.map fun p => Decimal.floatText p.y)

def textNodes (s : String) : List Node :=
  if s.isEmpty then [] else [.text s]

mutual
def toXml (position : Option (Point Float)) : Tree → Node
  | .node _ face slots chain =>
    .element "block" (blockAttributes face position)
      (slotsToXml slots ++
        match chain with
        | [] => []
        | t :: ts => [.element "chain" [] (toXml none t :: chainToXml ts)])
def slotsToXml : List (Slot Tree) → List Node
  | [] => []
  | ⟨name, .value none literal⟩ :: slots =>
    .element "slot" [("name", name)] (textNodes literal) :: slotsToXml slots
  | ⟨name, .value (some child) literal⟩ :: slots =>
    .element "slot" [("name", name)] (textNodes literal ++ [toXml none child]) :: slotsToXml slots
  | ⟨name, .body entries⟩ :: slots =>
    .element "slot" [("name", name), ("shape", "statement")] (entriesToXml entries) ::
      slotsToXml slots
def entriesToXml : List (Entry Tree) → List Node
  | [] => []
  | .block t :: entries => toXml none t :: entriesToXml entries
  | .line text :: entries => .element "line" [] (textNodes text) :: entriesToXml entries
def chainToXml : List Tree → List Node
  | [] => []
  | t :: ts => toXml none t :: chainToXml ts
end

end Tree

namespace Canvas

def toXml (c : Canvas) : Node :=
  .element "canvas"
    [("height", Decimal.floatText c.bounds.height), ("width", Decimal.floatText c.bounds.width)]
    (c.forest.map fun r => r.tree.toXml (some r.position))

def toXmlText (c : Canvas) (xml : Xml.Codec) : String :=
  xml.write c.toXml

end Canvas
end BlockCanvas
