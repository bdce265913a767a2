import BlockCanvas.Xml.Basic

/-!
The written form of XML: a declaration, then the root with no white space added.
-/
namespace BlockCanvas.Xml

def escapeText (c : Char) : List Char :=
  if c == '<' then ['&', 'l', 't', ';']
  else if c == '>' then ['&', 'g', 't', ';']
  else if c == '&' then ['&', 'a', 'm', 'p', ';']
  else [c]

/-- Line ends are escaped in attributes, where a reader would otherwise make spaces of them. -/
def escapeAttribute (c : Char) : List Char :=
  if c == '"' then ['&', 'q', 'u', 'o', 't', ';']
  else if c == '\'' then ['&', 'a', 'p', 'o', 's', ';']
  else if c == '\n' then ['&', '#', 'x', 'A', ';']
  else if c == '\r' then ['&', '#', 'x', 'D', ';']
  else escapeText c

def attributeText (a : String × String) : String :=
  " " ++ a.1 ++ "=\"" ++ String.ofList (a.2.toList.flatMap escapeAttribute) ++ "\""

def openTag (name : String) (attributes : List (String × String)) : String :=
  "<" ++ name ++ String.join (attributes.map attributeText)

mutual
def render : Node → String
  | .text s => String.ofList (s.toList.flatMap escapeText)
  | .element name attributes [] => openTag name attributes ++ " />"
  | .element name attributes (child :: children) =>
    openTag name attributes ++ ">" ++ render child ++ renderAll children ++ "</" ++ name ++ ">"
def renderAll : List Node → String
  | [] => ""
  | node :: nodes => render node ++ renderAll nodes
end

def renderDocument (root : Node) : String :=
  "<?xml version=\"1.0\" encoding=\"UTF-8\"?>" ++ render root

end BlockCanvas.Xml
