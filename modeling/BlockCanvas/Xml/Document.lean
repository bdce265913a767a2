import BlockCanvas.Xml.Encoding
import BlockCanvas.Xml.Parser

/-!
Reading XML documents: the declaration, the document type, and the elements. A document may have
several elements at its outermost level; the first is its root.
-/
namespace BlockCanvas.Xml

/-! ## The declaration -/

structure Declaration where
  eleven : Bool := false
  encoding : Option String := none

def readField (setting : Setting) (n : Nat) (rest : String) (l : Lexer) :
    Option (String × Lexer) := do
  let (letters, t, l) ← readLetters n [] l
  let name ← nameOf? letters
  if name.part == rest then readAssigned setting n t l else none

def readDivided (n : Nat) (l : Lexer) : Option (Token × Lexer) := do
  let (t, l) ← l.next
  if t.isSpacing then skipSpacing n l else if t == .instructionClose then some (t, l) else none

def readStandalone (setting : Setting) (n : Nat) (t : Token) (l : Lexer) : Option Lexer := do
  match t with
  | .instructionClose => some l
  | .char 's' => do
    let (value, l) ← readField setting n "tandalone" l
    if value != "yes" && value != "no" then none
    else
      match ← skipSpacing n l with
      | (.instructionClose, l) => some l
      | _ => none
  | _ => none

def readDeclared (n : Nat) (l : Lexer) : Option (Declaration × Lexer) := do
  match ← skipSpacing n l with
  | (.char 'v', l) =>
    let (version, l) ← readField {} n "ersion" l
    let eleven ← if version == "1.0" then some false else if version == "1.1" then some true
      else none
    let setting : Setting := { eleven }
    match ← readDivided n l with
    | (.char 'e', l) =>
      let (encoding, l) ← readField setting n "ncoding" l
      let (t, l) ← readDivided n l
      return (⟨eleven, some encoding⟩, ← readStandalone setting n t l)
    | (t, l) => return (⟨eleven, none⟩, ← readStandalone setting n t l)
  | _ => none

def readDeclaration (n : Nat) (l : Lexer) : Option (Declaration × Lexer) :=
  match l.next with
  | some (.instructionOpen, rest) =>
    match readTarget n [] rest with
    | some (['x', 'm', 'l'], t, rest) => if t.isSpacing then readDeclared n rest else none
    | _ => some ({}, l)
  | _ => some ({}, l)

/-! ## The document type -/

def readEntityName : Nat → List Char → Lexer → Option (String × Token × Lexer)
  | 0, _, _ => none
  | n + 1, seen, l =>
    match l.next with
    | none => none
    | some (.char c, rest) =>
      if c == ':' || isNameChar c then readEntityName n (c :: seen) rest
      else some (String.ofList seen.reverse, .char c, rest)
    | some (t, rest) => some (String.ofList seen.reverse, t, rest)

def readParameter (setting : Setting) (n : Nat) (l : Lexer) : Option (List Char × Lexer) := do
  let (name, t, l) ← readEntityName n ['%'] l
  if t == .semicolon || t == .char ';' then
    return (← setting.entities.lookup name, l)
  else none

def readDigits (setting : Setting) : Nat → List Char → Lexer → Option (List Char × Lexer)
  | 0, _, _ => none
  | n + 1, seen, l =>
    match l.next with
    | some (.semicolon, rest) => some (seen.reverse, rest)
    | some (.char c, rest) =>
      if c == ';' then some (seen.reverse, rest)
      else if isChar setting.eleven c then readDigits setting n (c :: seen) rest
      else none
    | _ => none

/-- The text of an entity up to its quote, gathered in reverse. Numeric references and those to
parameter entities are resolved, others stay. -/
def readEntityText (setting : Setting) (mark : Char) :
    Nat → List Char → Lexer → Option (List Char × Lexer)
  | 0, _, _ => none
  | n + 1, seen, l =>
    match l.next with
    | some (.quote m, rest) =>
      if m == mark then some (seen.reverse, rest)
      else readEntityText setting mark n (m :: seen) rest
    | some (.char c, rest) =>
      if c == '%' then
        match readParameter setting n rest with
        | some (text, rest) => readEntityText setting mark n (text.reverse ++ seen) rest
        | none => none
      else if c != '&' then
        if isChar setting.eleven c then readEntityText setting mark n (c :: seen) rest else none
      else
        match rest.next with
        | some (.char '#', rest) =>
          match readDigits setting n [] rest with
          | none => none
          | some (digits, rest) =>
            match numbered? setting digits with
            | some d => readEntityText setting mark n (d :: seen) rest
            | none => none
        | some (.char d, rest) =>
          if isChar setting.eleven d then readEntityText setting mark n (d :: '&' :: seen) rest
          else none
        | _ => none
    | _ => none

def skipDeclaration : Nat → Lexer → Option Lexer
  | 0, _ => none
  | n + 1, l =>
    match l.next with
    | some (.tagClose, rest) => some rest
    | some (.finish, _) => none
    | some (_, rest) => skipDeclaration n rest
    | none => none

/-- Declares an entity. The first declaration of a name counts. -/
def Setting.declare (setting : Setting) (name : String) (text : List Char) : Setting :=
  { setting with entities := setting.entities ++ [(name, text)] }

def readEntity (setting : Setting) (n : Nat) (l : Lexer) : Option (Setting × Lexer) := do
  let (sign, t, l) ← match ← skipSpacing n l with
    | (.char '%', l) => (skipSpacing n l).map fun r => (['%'], r)
    | (t, l) => some ([], t, l)
  match t with
  | .char c =>
    if !isLetter [] c then none
    else
      let (name, t, l) ← readEntityName n (c :: sign) l
      if !t.isSpacing then none
      else
        match ← skipSpacing n l with
        | (.quote mark, l) =>
          let (text, l) ← readEntityText setting mark n [] l
          return (setting.declare name text, ← skipDeclaration n l)
        | (.char c, l) =>
          if c == 'S' || c == 'P' then return (setting.declare name [], ← skipDeclaration n l)
          else none
        | _ => none
  | _ => none

def readKeyword : Nat → List Char → Lexer → Option (String × Lexer)
  | 0, _, _ => none
  | n + 1, seen, l =>
    match l.next with
    | some (.char c, rest) =>
      if c.isUpper then readKeyword n (c :: seen) rest
      else if Text.isSpacing c then some (String.ofList seen.reverse, rest)
      else none
    | _ => none

def readMarkupDeclaration (setting : Setting) (n : Nat) (l : Lexer) :
    Option (Setting × Lexer) := do
  let (word, l) ← readKeyword n [] l
  if word == "ENTITY" then readEntity setting n l
  else if ["NOTATION", "ELEMENT", "ATTLIST"].contains word then
    (skipDeclaration n l).map fun l => (setting, l)
  else none

def skipTo (stop : Token) : Nat → Lexer → Option Lexer
  | 0, _ => none
  | n + 1, l =>
    match l.next with
    | none => none
    | some (t, rest) =>
      if t == stop then some rest else if t == .finish then none else skipTo stop n rest

def readDoctype : Nat → Setting → Lexer → Option (Setting × Lexer)
  | 0, _, _ => none
  | n + 1, setting, l =>
    match l.next with
    | none => none
    | some (t, l) =>
      match t with
      | .tagClose => some (setting, l)
      | .declarationOpen =>
        match readMarkupDeclaration setting n l with
        | some (setting, l) => readDoctype n setting l
        | none => none
      | .char '%' =>
        match readParameter setting n l with
        | none => none
        | some (text, l) =>
          match l.enter text with
          | some l => readDoctype n setting l
          | none => none
      | .commentOpen =>
        match skipTo .commentClose n l with
        | some l => readDoctype n setting l
        | none => none
      | .quote mark =>
        match skipTo (.quote mark) n l with
        | some l => readDoctype n setting l
        | none => none
      | .cdataOpen => none
      | .cdataClose => none
      | .finish => none
      | _ => readDoctype n setting l

/-! ## The document -/

def readOutside : Nat → Setting → (typed : Bool) → (root : Option Node) → Lexer → Option Node
  | 0, _, _, _, _ => none
  | n + 1, setting, typed, root, l =>
    match l.next with
    | none => none
    | some (t, l) =>
      match t with
      | .char c => if Text.isSpacing c then readOutside n setting typed root l else none
      | .commentOpen =>
        match skipComment setting n l with
        | some l => readOutside n setting typed root l
        | none => none
      | .instructionOpen =>
        match skipInstruction setting n l with
        | some l => readOutside n setting typed root l
        | none => none
      | .doctypeOpen =>
        if typed then none
        else
          match readDoctype n setting l with
          | some (setting, l) => readOutside n setting true root l
          | none => none
      | .tagOpen =>
        match readElement setting n ["", "xml", "xmlns"] l with
        | some (node, l) => readOutside n setting true (root.or (some node)) l
        | none => none
      | .finish => root
      | _ => none

/-- As many tokens as a text can give. Between two of its own characters at most `Lexer.maxDepth`
entities are entered, none of them longer than the text. -/
def tokenBound (size : Nat) : Nat :=
  (size + 2) * ((Lexer.maxDepth + 1) * (size + 2))

def readDocument (eleven : Bool) (cs : List Char) : Option Node :=
  readOutside (tokenBound cs.length) { eleven } false none { text := cs }

def readMarked (encoding : Encoding) (cs : List Char) : Option Node := do
  let (declaration, l) ← readDeclaration (tokenBound cs.length) { text := cs }
  if declaration.encoding.all fun name => Encoding.ofName? name == some encoding then
    readDocument declaration.eleven l.text
  else none

def readUnmarked (bytes : List UInt8) : Option Node := do
  let cs := validUtf8 bytes
  let (declaration, l) ← readDeclaration (tokenBound cs.length) { text := cs }
  let encoding ← match declaration.encoding with
    | none => some .utf8
    | some name => Encoding.ofName? name
  let size := (Text.utf8 (String.ofList (cs.take (cs.length - l.text.length)))).length
  readDocument declaration.eleven (← encoding.decode? (bytes.drop size))

def parse? (bytes : List UInt8) : Option Node :=
  match marked? bytes with
  | some (encoding, text?) => text?.bind (readMarked encoding)
  | none => readUnmarked bytes

end BlockCanvas.Xml
