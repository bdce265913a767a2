import BlockCanvas.Text.Blank
import BlockCanvas.Xml.Names

/-!
The tokens of an XML document. What a character begins depends on where it stands, so the lexer has
modes; a document type declaration is a surrounding that it comes back to. The text of an entity is
read in the place of its reference.
-/
namespace BlockCanvas.Xml

inductive Token where
  | char (c : Char)
  | tagOpen
  | endTagOpen
  | tagClose
  | emptyTagClose
  | instructionOpen
  | instructionClose
  | doctypeOpen
  | declarationOpen
  | commentOpen
  | commentClose
  | cdataOpen
  | cdataClose
  | equals
  | quote (mark : Char)
  | ampersand
  | semicolon
  | finish
  deriving DecidableEq, Repr

def Token.chars : Token → List Char
  | .char c => [c]
  | .tagOpen => ['<']
  | .endTagOpen => ['<', '/']
  | .tagClose => ['>']
  | .emptyTagClose => ['/', '>']
  | .instructionOpen => ['<', '?']
  | .instructionClose => ['?', '>']
  | .doctypeOpen => ['<', '!', 'D', 'O', 'C', 'T', 'Y', 'P', 'E']
  | .declarationOpen => ['<', '!']
  | .commentOpen => ['<', '!', '-', '-']
  | .commentClose => ['-', '-', '>']
  | .cdataOpen => ['<', '!', '[', 'C', 'D', 'A', 'T', 'A', '[']
  | .cdataClose => [']', ']', '>']
  | .equals => ['=']
  | .quote mark => [mark]
  | .ampersand => ['&']
  | .semicolon => [';']
  | .finish => []

def Token.isSpacing : Token → Bool
  | .char c => Text.isSpacing c
  | _ => false

inductive Mode where
  | content
  | doctype
  | declaration
  | literal (mark : Char)
  | comment
  | cdata
  | instruction
  deriving DecidableEq, Repr

/-- What is left of a document. The first `borrowed` characters are the text of entities; `depth`
counts the entities entered since a character of the document itself was read. -/
structure Lexer where
  mode : Mode := .content
  inDoctype : Bool := false
  text : List Char
  borrowed : Nat := 0
  depth : Nat := 0
  deriving DecidableEq, Repr

namespace Lexer

def past (l : Lexer) (n : Nat) (rest : List Char) : Lexer :=
  { l with
    text := rest
    borrowed := l.borrowed - n
    depth := if n ≤ l.borrowed then l.depth else 0 }

def into (l : Lexer) (mode : Mode) : Lexer :=
  { l with mode }

def home (l : Lexer) : Lexer :=
  l.into (if l.inDoctype then .doctype else .content)

def after? (word : List Char) (cs : List Char) : Option (List Char) :=
  if word.isPrefixOf cs then some (cs.drop word.length) else none

def plain (c : Char) : Token :=
  if c == '>' then .tagClose
  else if c == '=' then .equals
  else if c == '"' || c == '\'' then .quote c
  else if c == '&' then .ampersand
  else if c == ';' then .semicolon
  else .char c

def plainInDoctype (c : Char) : Token :=
  if c == '"' || c == '\'' then .quote c
  else if c == '&' then .ampersand
  else if c == ';' then .semicolon
  else .char c

def plainInInstruction (c : Char) : Token :=
  if c == '<' then .tagOpen
  else if c == '/' then .endTagOpen
  else plain c

def marked (l : Lexer) (cs : List Char) : Option (Token × Lexer) :=
  match cs with
  | '-' :: '-' :: rest => some (.commentOpen, (l.past 4 rest).into .comment)
  | '[' :: rest =>
    (after? ['C', 'D', 'A', 'T', 'A', '['] rest).map fun rest =>
      (.cdataOpen, (l.past 9 rest).into .cdata)
  | 'D' :: rest =>
    (after? ['O', 'C', 'T', 'Y', 'P', 'E'] rest).map fun rest =>
      (.doctypeOpen, { (l.past 9 rest).into .doctype with inDoctype := true })
  | c :: _ =>
    if l.inDoctype && (c == 'E' || c == 'A' || c == 'N') then
      some (.declarationOpen, (l.past 2 cs).into .declaration)
    else none
  | [] => none

def markup (l : Lexer) (cs : List Char) : Option (Token × Lexer) :=
  match cs with
  | '?' :: rest => some (.instructionOpen, (l.past 2 rest).into .instruction)
  | '/' :: rest => some (.endTagOpen, (l.past 2 rest).home)
  | '!' :: rest => l.marked rest
  | c :: _ =>
    if Text.isSpacing c || c == ':' || isNameChar c then some (.tagOpen, (l.past 1 cs).home)
    else none
  | [] => none

def nextInContent (l : Lexer) : Option (Token × Lexer) :=
  match l.text with
  | [] => some (.finish, l)
  | '<' :: cs => l.markup cs
  | '/' :: '>' :: cs => some (.emptyTagClose, (l.past 2 cs).home)
  | ']' :: ']' :: '>' :: cs => some (.cdataClose, (l.past 3 cs).home)
  | c :: cs => some (plain c, l.past 1 cs)

def nextInDoctype (l : Lexer) : Option (Token × Lexer) :=
  match l.text with
  | [] => some (.finish, l)
  | '>' :: cs => some (.tagClose, { (l.past 1 cs).into .content with inDoctype := false })
  | '<' :: cs => l.markup cs
  | c :: cs => some (plainInDoctype c, l.past 1 cs)

def nextInDeclaration (l : Lexer) : Option (Token × Lexer) :=
  match l.text with
  | [] => some (.finish, l)
  | '>' :: cs => some (.tagClose, (l.past 1 cs).home)
  | '<' :: cs => l.markup cs
  | c :: cs =>
    let l := l.past 1 cs
    some (plainInDoctype c, if c == '"' || c == '\'' then l.into (.literal c) else l)

def nextInLiteral (mark : Char) (l : Lexer) : Option (Token × Lexer) :=
  match l.text with
  | [] => some (.finish, l)
  | c :: cs =>
    if c == mark then some (.quote c, (l.past 1 cs).into .declaration)
    else some (.char c, l.past 1 cs)

def nextInComment (l : Lexer) : Option (Token × Lexer) :=
  match l.text with
  | [] => some (.finish, l)
  | '-' :: '-' :: '>' :: cs => some (.commentClose, (l.past 3 cs).home)
  | '-' :: '-' :: _ => none
  | c :: cs => some (.char c, l.past 1 cs)

def nextInCdata (l : Lexer) : Option (Token × Lexer) :=
  match l.text with
  | [] => some (.finish, l)
  | ']' :: ']' :: '>' :: cs => some (.cdataClose, (l.past 3 cs).into .content)
  | c :: cs => some (.char c, l.past 1 cs)

def nextInInstruction (l : Lexer) : Option (Token × Lexer) :=
  match l.text with
  | [] => some (.finish, l)
  | '?' :: '>' :: cs => some (.instructionClose, (l.past 2 cs).home)
  | c :: cs => some (plainInInstruction c, l.past 1 cs)

/-- The next token. There is none where markup is broken; the end of the text is a token too. -/
def next (l : Lexer) : Option (Token × Lexer) :=
  match l.mode with
  | .content => l.nextInContent
  | .doctype => l.nextInDoctype
  | .declaration => l.nextInDeclaration
  | .literal mark => l.nextInLiteral mark
  | .comment => l.nextInComment
  | .cdata => l.nextInCdata
  | .instruction => l.nextInInstruction

def maxDepth : Nat := 10

def enter (l : Lexer) (entity : List Char) : Option Lexer :=
  if entity.isEmpty then some l
  else if maxDepth ≤ l.depth then none
  else some { l with
    text := entity ++ l.text
    borrowed := l.borrowed + entity.length
    depth := l.depth + 1 }

end Lexer
end BlockCanvas.Xml
