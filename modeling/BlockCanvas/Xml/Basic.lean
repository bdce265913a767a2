/-!
XML elements without namespaces: local names, attributes by local name, and text.
-/
namespace BlockCanvas.Xml

inductive Node where
  | element (name : String) (attributes : List (String × String)) (children : List Node)
  | text (s : String)
  deriving Inhabited

/-- Adds an attribute; a later one of the same name takes the place of an earlier one. -/
def putAttribute (attributes : List (String × String)) (name value : String) :
    List (String × String) :=
  attributes.filter (fun a => a.1 != name) ++ [(name, value)]

def textOf : List Node → String
  | [] => ""
  | .text s :: nodes => s ++ textOf nodes
  | .element .. :: nodes => textOf nodes

structure Codec where
  read : List UInt8 → Option Node
  write : Node → String

end BlockCanvas.Xml
