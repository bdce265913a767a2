import BlockCanvas.Text.Blank
import BlockCanvas.Text.Word

/-!
Identifiers made of typed names, and the names that a program has used so far.
-/
namespace BlockCanvas.Python

def reserved : List String :=
  ["False", "None", "True", "and", "as", "assert", "async", "await", "break", "class", "continue",
    "def", "del", "elif", "else", "except", "finally", "for", "from", "global", "if", "import", "in",
    "is", "lambda", "nonlocal", "not", "or", "pass", "raise", "return", "try", "while", "with",
    "yield", "print", "range"]

def isNameChar (c : Char) : Bool :=
  Text.isWord c || c == '_'

def nameChars (raw : String) : List Char :=
  (Text.trim raw.toList).map fun c => if isNameChar c then c else '_'

def startsWithDigit (cs : List Char) : Bool :=
  cs.head?.any Char.isDigit

/-- A name that is no reserved word and starts with no ASCII digit. A blank name gives the
fallback. -/
def identifier (raw fallback : String) : String :=
  match nameChars raw with
  | [] => fallback
  | cs =>
    let name := String.ofList (if startsWithDigit cs then '_' :: cs else cs)
    if reserved.contains name then name ++ "_" else name

structure Scope where
  names : List String := []
  deriving DecidableEq, Repr

namespace Scope

def contains (s : Scope) (name : String) : Bool :=
  s.names.contains name

def register (s : Scope) (name : String) : Scope :=
  if s.contains name then s else ⟨s.names ++ [name]⟩

def first? (s : Scope) : Option String :=
  s.names.head?

/-- The registered name that a typed token refers to. Only a token that looks like a name can. -/
def reference? (s : Scope) (raw : String) : Option String :=
  let token := Text.trim raw.toList
  if !token.isEmpty && token.all (fun c => isNameChar c || c == ' ') then
    let name := identifier (String.ofList token) ""
    if s.contains name then some name else none
  else none

end Scope
end BlockCanvas.Python
