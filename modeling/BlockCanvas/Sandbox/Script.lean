/-!
Scripts of the machine's command language: words with what is to be expanded in them, redirections
and commands.
-/
namespace BlockCanvas.Sandbox

/-- What becomes of a parameter when it is expanded. `filled` asks for a value that is not empty. -/
inductive Adjustment where
  | plain
  | length
  | orElse (filled : Bool)
  | orAssign (filled : Bool)
  | instead (filled : Bool)
  | orFail (filled : Bool)
  | withoutStart (longest : Bool)
  | withoutEnd (longest : Bool)
  | bad
  deriving DecidableEq, Repr

inductive FileMode where
  | read
  | write
  | extend
  | update
  deriving DecidableEq, Repr

mutual
inductive Piece where
  | text (cs : List Char) (quoted : Bool)
  | parameter (name : String) (quoted : Bool) (adjustment : Adjustment) (word : List Piece)
  | output (command : Command) (quoted : Bool)
  | sum (expression : List Piece) (quoted : Bool)

inductive Redirect where
  | file (descriptor : Nat) (mode : FileMode) (target : List Piece)
  | copy (descriptor : Nat) (source : List Piece)
  | document (descriptor : Nat) (body : List Piece)

inductive Command where
  | nothing
  | simple (line : Nat) (words : List (List Piece)) (redirects : List Redirect)
  | redirected (command : Command) (redirects : List Redirect)
  | pipe (left right : Command)
  | sequence (first second : Command)
  | both (first second : Command)
  | either (first second : Command)
  | negated (command : Command)
  | background (command : Command)
  | subshell (command : Command)
  | branch (condition yes no : Command)
  | loop (wanted : Bool) (condition body : Command)
  | each (name : String) (words : List (List Piece)) (body : Command)
  | choice (word : List Piece) (clauses : List (List (List Piece) × Command))
  | function (name : String) (body : Command)
end

instance : Inhabited Command := ⟨.nothing⟩

abbrev Word := List Piece

namespace Word

def joined : Word → Word
  | [] => []
  | .text cs false :: rest =>
    match joined rest with
    | .text ds false :: more => .text (cs ++ ds) false :: more
    | more => .text cs false :: more
  | piece :: rest => piece :: joined rest

def plain? : Word → Option String
  | [.text cs false] => some (String.ofList cs)
  | _ => none

def bare : Word → List Char × Bool
  | [] => ([], false)
  | .text cs quoted :: rest =>
    let (more, any) := bare rest
    (cs ++ more, quoted || any)
  | _ :: rest => bare rest

end Word

namespace Script

def isNameStart (c : Char) : Bool :=
  c.isAlpha || c == '_'

def isNameChar (c : Char) : Bool :=
  isNameStart c || c.isDigit

def isName (s : String) : Bool :=
  match s.toList with
  | [] => false
  | c :: cs => isNameStart c && cs.all isNameChar

def assignment? : Word → Option (String × Word)
  | .text cs false :: rest =>
    let name := cs.takeWhile isNameChar
    match name, cs.drop name.length with
    | c :: _, '=' :: value =>
      if isNameStart c then
        some (String.ofList name, if value.isEmpty then rest else .text value false :: rest)
      else none
    | _, _ => none
  | _ => none

def assignments : List Word → List (String × Word) × List Word
  | [] => ([], [])
  | w :: words =>
    match assignment? w with
    | some setting =>
      let (settings, rest) := assignments words
      (setting :: settings, rest)
    | none => ([], w :: words)

end Script
end BlockCanvas.Sandbox
