import BlockCanvas.Decimal.Text
import BlockCanvas.Json.Parser
import BlockCanvas.Xml.Basic
import BlockCanvas.Xml.Token

/-!
Reading XML elements. Names lose their prefixes, which have to be declared; a run of white space
between markup is dropped, as are comments and processing instructions. The readers have fuel: every
step takes a token.
-/
namespace BlockCanvas.Xml

structure Setting where
  eleven : Bool := false
  entities : List (String × List Char) := []

def skipSpacing : Nat → Lexer → Option (Token × Lexer)
  | 0, _ => none
  | n + 1, l =>
    match l.next with
    | none => none
    | some (t, l) => if t.isSpacing then skipSpacing n l else some (t, l)

/-! ## Names -/

structure Name where
  space : Option String
  part : String
  deriving DecidableEq

def continues (seen : List Char) (c : Char) : Bool :=
  if c == ':' then !seen.isEmpty && !seen.contains ':'
  else if seen.isEmpty then isNameStart c
  else isNameChar c

def readLetters : Nat → List Char → Lexer → Option (List Char × Token × Lexer)
  | 0, _, _ => none
  | n + 1, seen, l =>
    match l.next with
    | none => none
    | some (.char c, rest) =>
      if continues seen c then readLetters n (c :: seen) rest
      else some (seen.reverse, .char c, rest)
    | some (t, rest) => some (seen.reverse, t, rest)

def nameOf? (letters : List Char) : Option Name :=
  let first := letters.takeWhile (· != ':')
  match letters.dropWhile (· != ':') with
  | [] => if first.isEmpty then none else some ⟨none, String.ofList first⟩
  | _ :: part =>
    if first.isEmpty || part.isEmpty then none
    else some ⟨some (String.ofList first), String.ofList part⟩

def isLetter (seen : List Char) (c : Char) : Bool :=
  c == ':' || (if seen.isEmpty then isNameStart c else isNameChar c)

/-! ## References -/

def natOfRadix? (radix : Nat) (digits : List Char) : Option Nat :=
  let digits := match digits with
    | '+' :: ds => ds
    | ds => ds
  if digits.isEmpty then none
  else digits.foldlM (fun n d => (Json.hexValue? d).bind fun v =>
    if v < radix then some (radix * n + v) else none) 0

def numbered? (setting : Setting) (digits : List Char) : Option Char := do
  let n ← match digits with
    | 'x' :: ds => natOfRadix? 16 ds
    | ds => natOfRadix? 10 ds
  let c := Char.ofNat n
  if c.toNat == n && isChar setting.eleven c then some c else none

inductive Referred where
  | char (c : Char)
  | entity (text : List Char)

def resolve (setting : Setting) (name : List Char) : Option Referred :=
  match name with
  | [] => none
  | '#' :: digits => (numbered? setting digits).map .char
  | _ =>
    let name := String.ofList name
    if name == "lt" then some (.char '<')
    else if name == "gt" then some (.char '>')
    else if name == "amp" then some (.char '&')
    else if name == "apos" then some (.char '\'')
    else if name == "quot" then some (.char '"')
    else (setting.entities.lookup name).map .entity

def readReference (setting : Setting) :
    Nat → List Char → Lexer → Option (Referred × Lexer)
  | 0, _, _ => none
  | n + 1, seen, l =>
    match l.next with
    | some (.char c, rest) =>
      if isLetter seen c || (seen.isEmpty && c == '#') then
        readReference setting n (c :: seen) rest
      else none
    | some (.semicolon, rest) => (resolve setting seen.reverse).map fun r => (r, rest)
    | _ => none

/-! ## Tags -/

def readValue (setting : Setting) (mark : Char) :
    Nat → List Char → Lexer → Option (List Char × Lexer)
  | 0, _, _ => none
  | n + 1, seen, l =>
    match l.next with
    | none => none
    | some (t, rest) =>
      match t with
      | .quote m =>
        if m == mark then some (seen.reverse, rest) else readValue setting mark n (m :: seen) rest
      | .ampersand =>
        match readReference setting n [] rest with
        | some (.char c, rest) => readValue setting mark n (c :: seen) rest
        | some (.entity text, rest) => readValue setting mark n (text.reverse ++ seen) rest
        | none => none
      | .tagOpen => none
      | .instructionOpen => none
      | .finish => none
      | .char c =>
        if isLiteralChar setting.eleven c then readValue setting mark n (c :: seen) rest else none
      | t => readValue setting mark n (t.chars.reverse ++ seen) rest

def readAssigned (setting : Setting) (n : Nat) (t : Token) (l : Lexer) :
    Option (String × Lexer) := do
  let (t, l) ← if t.isSpacing then skipSpacing n l else some (t, l)
  if t != .equals then none
  else
    match ← skipSpacing n l with
    | (.quote mark, l) => (readValue setting mark n [] l).map fun r => (String.ofList r.1, r.2)
    | _ => none

def xmlSpace : String := "http://www.w3.org/XML/1998/namespace"

def xmlnsSpace : String := "http://www.w3.org/2000/xmlns/"

def reservedSpaces : List String :=
  ["xml", "xmlns"]

def declared? (name : Name) : Option String :=
  match name.space with
  | none => if name.part == "xmlns" then some "" else none
  | some space => if space == "xmlns" then some name.part else none

def readAttributes (setting : Setting) : Nat → List (Name × String) → Token → Lexer →
    Option (List (Name × String) × Bool × Lexer)
  | 0, _, _, _ => none
  | n + 1, seen, t, l =>
    match t with
    | .tagClose => some (seen.reverse, false, l)
    | .emptyTagClose => some (seen.reverse, true, l)
    | t =>
      if !t.isSpacing then none
      else
        match skipSpacing n l with
        | some (.tagClose, l) => some (seen.reverse, false, l)
        | some (.emptyTagClose, l) => some (seen.reverse, true, l)
        | some (.char c, l) =>
          if !isNameStart c then none
          else
            match readLetters n [c] l with
            | none => none
            | some (letters, t, l) =>
              match nameOf? letters with
              | none => none
              | some name =>
                if (declared? name).isNone && seen.any fun a => a.1 == name then none
                else
                  match readAssigned setting n t l with
                  | none => none
                  | some (value, l) =>
                    match l.next with
                    | some (t, l) => readAttributes setting n ((name, value) :: seen) t l
                    | none => none
        | _ => none

def allowsDeclaration (label value : String) : Bool :=
  if label == "" then
    value != "xml" && value != "xmlns" && value != xmlSpace && value != xmlnsSpace
  else if label == "xmlns" then false
  else if label == "xml" then value == xmlSpace
  else value != ""

structure StartTag where
  name : Name
  attributes : List (String × String)
  bound : List String
  isEmpty : Bool

def readStartTag (setting : Setting) (n : Nat) (bound : List String) (l : Lexer) :
    Option (StartTag × Lexer) := do
  let (letters, t, l) ← readLetters n [] l
  let name ← nameOf? letters
  let (all, isEmpty, l) ← readAttributes setting n [] t l
  let declarations := all.filterMap fun a => (declared? a.1).map fun label => (label, a.2)
  if !declarations.all fun d => allowsDeclaration d.1 d.2 then none
  else
    let bound := declarations.map Prod.fst ++ bound
    let plain := all.filter fun a => (declared? a.1).isNone
    let known (space : Option String) : Bool := space.all bound.contains
    if name.space.any reservedSpaces.contains then none
    else if known name.space && plain.all fun a => known a.1.space then
      let attributes := plain.foldl (fun seen a => putAttribute seen a.1.part a.2) []
      some (⟨name, attributes, bound, isEmpty⟩, l)
    else none

def readEndTag (n : Nat) (l : Lexer) : Option (Name × Lexer) := do
  let (letters, t, l) ← readLetters n [] l
  let name ← nameOf? letters
  let (t, l) ← if t.isSpacing then skipSpacing n l else some (t, l)
  if t == .tagClose then some (name, l) else none

/-! ## Content -/

def skipComment (setting : Setting) : Nat → Lexer → Option Lexer
  | 0, _ => none
  | n + 1, l =>
    match l.next with
    | some (.commentClose, rest) => some rest
    | some (.char c, rest) => if isChar setting.eleven c then skipComment setting n rest else none
    | _ => none

def readCdata (setting : Setting) : Nat → List Char → Lexer → Option (List Char × Lexer)
  | 0, _, _ => none
  | n + 1, seen, l =>
    match l.next with
    | some (.cdataClose, rest) => some (seen.reverse, rest)
    | some (.char c, rest) =>
      if isChar setting.eleven c then readCdata setting n (c :: seen) rest else none
    | _ => none

def readTarget : Nat → List Char → Lexer → Option (List Char × Token × Lexer)
  | 0, _, _ => none
  | n + 1, seen, l =>
    match l.next with
    | none => none
    | some (.char c, rest) =>
      if isLetter seen c then readTarget n (c :: seen) rest
      else some (seen.reverse, .char c, rest)
    | some (t, rest) => some (seen.reverse, t, rest)

def skipInstructionData (setting : Setting) : Nat → Lexer → Option Lexer
  | 0, _ => none
  | n + 1, l =>
    match l.next with
    | none => none
    | some (.instructionClose, rest) => some rest
    | some (.finish, _) => none
    | some (.char c, rest) =>
      if isChar setting.eleven c then skipInstructionData setting n rest else none
    | some (_, rest) => skipInstructionData setting n rest

def skipInstruction (setting : Setting) (n : Nat) (l : Lexer) : Option Lexer := do
  let (target, t, l) ← readTarget n [] l
  if target.map Char.toLower == ['x', 'm', 'l'] then none
  else if t == .instructionClose then if target.isEmpty then none else some l
  else if t.isSpacing then skipInstructionData setting n l
  else none

def flush (text : List Char) (blank : Bool) (seen : List Node) : List Node :=
  if text.isEmpty || blank then seen else .text (String.ofList text.reverse) :: seen

/-- Whether text after a reference still counts as blank. An entity whose text is still to come
stands for something. -/
def blankAfterReference (blank : Bool) (text : List Char) : Bool :=
  blank && !text.isEmpty && text.all Text.isSpacing

mutual
/-- What an element holds, up to its end tag. Nodes and the current run of text are gathered in
reverse. A section that is not blank makes the white space after it count, up to the next markup. -/
def readContent (setting : Setting) (fuel : Nat) (bound : List String) (name : Name)
    (seen : List Node) (text : List Char) (blank : Bool) (l : Lexer) :
    Option (List Node × Lexer) :=
  match fuel with
  | 0 => none
  | fuel + 1 =>
    match l.next with
    | none => none
    | some (t, l) =>
      match t with
      | .char c =>
        if isLiteralChar setting.eleven c then
          readContent setting fuel bound name seen (c :: text) (blank && Text.isSpacing c) l
        else none
      | .ampersand =>
        match readReference setting fuel [] l with
        | none => none
        | some (.char c, l) =>
          readContent setting fuel bound name seen (c :: text)
            (blankAfterReference blank (c :: text)) l
        | some (.entity entity, l) =>
          match l.enter entity with
          | none => none
          | some l =>
            readContent setting fuel bound name seen text (blankAfterReference blank text) l
      | .endTagOpen =>
        match readEndTag fuel l with
        | none => none
        | some (closing, l) =>
          if closing == name then some ((flush text blank seen).reverse, l) else none
      | .commentOpen =>
        match skipComment setting fuel l with
        | none => none
        | some l => readContent setting fuel bound name (flush text blank seen) [] true l
      | .cdataOpen =>
        match readCdata setting fuel [] l with
        | none => none
        | some (data, l) =>
          readContent setting fuel bound name
            (.text (String.ofList data) :: flush text blank seen) [] (data.all Text.isSpacing) l
      | .instructionOpen =>
        match skipInstruction setting fuel l with
        | none => none
        | some l => readContent setting fuel bound name (flush text blank seen) [] true l
      | .tagOpen =>
        match readElement setting fuel bound l with
        | none => none
        | some (node, l) =>
          readContent setting fuel bound name (node :: flush text blank seen) [] true l
      | .doctypeOpen => none
      | .declarationOpen => none
      | .cdataClose => none
      | .finish => none
      | t => readContent setting fuel bound name seen (t.chars.reverse ++ text) false l
def readElement (setting : Setting) (fuel : Nat) (bound : List String) (l : Lexer) :
    Option (Node × Lexer) :=
  match fuel with
  | 0 => none
  | fuel + 1 =>
    match readStartTag setting fuel bound l with
    | none => none
    | some (tag, l) =>
      if tag.isEmpty then some (.element tag.name.part tag.attributes [], l)
      else
        match readContent setting fuel tag.bound tag.name [] [] true l with
        | none => none
        | some (children, l) => some (.element tag.name.part tag.attributes children, l)
end

end BlockCanvas.Xml
