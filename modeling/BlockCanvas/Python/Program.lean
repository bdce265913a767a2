import BlockCanvas.Canvas.Tree
import BlockCanvas.Python.Commas
import BlockCanvas.Python.Identifier
import BlockCanvas.Python.Literal

/-!
The Python program of a forest. Statements become lines with a level of indentation; the names that
were assigned so far decide whether a typed token is a variable or a literal.
-/
namespace BlockCanvas.Python

structure Options where
  indentWidth : Nat := 4
  loopVariable : String := "i"

structure Line where
  level : Nat
  text : String
  deriving DecidableEq, Repr

structure Program where
  source : String
  names : List String
  deriving DecidableEq, Repr

def literalText (raw : String) : String :=
  String.ofList (Literal.infer raw.toList).text

/-- A typed token: a known variable stays bare, anything else is a literal. -/
def token (s : Scope) (raw : String) : String :=
  match s.reference? raw with
  | some name => name
  | none => literalText raw

def slotNamed? (name : String) (slots : List (Slot Tree)) : Option (Slot Tree) :=
  slots.find? fun s => s.name == name

mutual
def expression (s : Scope) : Tree → Scope × String
  | .node _ face slots _ =>
    match face.kind with
    | .operation =>
      let (s, left) := (slotText s true "left" slots).getD (s, "0")
      let (s, right) := (slotText s true "right" slots).getD (s, "0")
      (s, left ++ " " ++ (face.operator.getD .add).symbol ++ " " ++ right)
    | .assignment =>
      let name := identifier face.name "var"
      (s.register name, name)
    | _ => (s, "None")
/-- What the slot of a name holds: the expression of its block, else its typed token, else nothing.
Where it is an operand, a nested operation is put in parentheses. -/
def slotText (s : Scope) (operand : Bool) (name : String) :
    List (Slot Tree) → Option (Scope × String)
  | [] => none
  | ⟨n, .value (some child) _⟩ :: slots =>
    if n == name then
      let (s, text) := expression s child
      some (s, if operand && child.kind == .operation then "(" ++ text ++ ")" else text)
    else slotText s operand name slots
  | ⟨n, .value none literal⟩ :: slots =>
    if n == name then
      if Text.allBlank literal then none else some (s, token s literal)
    else slotText s operand name slots
  | ⟨n, .body _⟩ :: slots => if n == name then none else slotText s operand name slots
end

def condition (s : Scope) (slots : List (Slot Tree)) : Scope × String :=
  (slotText s false "condition" slots).getD (s, "False")

def printedText (face : Face) (slots : List (Slot Tree)) : String :=
  match (slotNamed? "value" slots).bind Slot.literal? with
  | some literal => if Text.allBlank literal then face.override.getD "" else literal
  | none => face.override.getD ""

/-- Typed text as arguments. It is one argument unless a part between commas names a variable. -/
def arguments (s : Scope) (raw : String) : String :=
  if Text.allBlank raw then ""
  else
    let parts := splitCommas raw
    if parts.length > 1 && parts.any (fun p => (s.reference? p).isSome) then
      ", ".intercalate (parts.map (token s))
    else token s raw

def printArguments (s : Scope) (face : Face) (slots : List (Slot Tree)) : Scope × String :=
  match (slotNamed? "value" slots).map Slot.content with
  | some (.value (some child) _) => expression s child
  | _ => (s, arguments s (printedText face slots))

/-- The arguments of a range: all three if a step is given, two if an end is, else the start. -/
def rangeArguments (s : Scope) (slots : List (Slot Tree)) : Scope × String :=
  let populated (name : String) : Bool := (slotNamed? name slots).any Slot.isPopulated
  let (s, start) := (slotText s false "start" slots).getD (s, "0")
  if populated "step" then
    let (s, stop) := (slotText s false "end" slots).getD (s, "0")
    let (s, step) := (slotText s false "step" slots).getD (s, "1")
    (s, start ++ ", " ++ stop ++ ", " ++ step)
  else if populated "end" then
    let (s, stop) := (slotText s false "end" slots).getD (s, "0")
    (s, start ++ ", " ++ stop)
  else (s, start)

def loopVariable (o : Options) (s : Scope) (face : Face) : String :=
  if Text.allBlank face.name then s.first?.getD o.loopVariable
  else identifier face.name o.loopVariable

def orPass (level : Nat) (lines : List Line) : List Line :=
  if lines.isEmpty then [⟨level, "pass"⟩] else lines

mutual
def statement (o : Options) (level : Nat) (s : Scope) : Tree → Scope × List Line
  | .node id face slots chain =>
    match face.kind with
    | .assignment =>
      let name := identifier face.name "var"
      let s := s.register name
      let given := face.override.elim "None" (token s)
      let (s, value) := (slotText s false "value" slots).getD (s, given)
      (s, [⟨level, name ++ " = " ++ value⟩])
    | .operation =>
      let (s, text) := expression s (.node id face slots chain)
      (s, [⟨level, text⟩])
    | .print =>
      let (s, text) := printArguments s face slots
      (s, [⟨level, "print(" ++ text ++ ")"⟩])
    | .ifBranch =>
      let (s, test) := condition s slots
      let (s, body) := bodyLines o (level + 1) s slots
      let (s, rest) := branches o level s chain
      (s, ⟨level, "if " ++ test ++ ":"⟩ :: orPass (level + 1) body ++ rest)
    | .elifBranch | .elseBranch =>
      (s, [⟨level, "pass  # '" ++ face.kind.name ++ "' block is not attached to an if"⟩])
    | .whileLoop =>
      let (s, test) := condition s slots
      let (s, body) := bodyLines o (level + 1) s slots
      (s, ⟨level, "while " ++ test ++ ":"⟩ :: orPass (level + 1) body)
    | .doWhileLoop =>
      let (s, body) := bodyLines o (level + 1) s slots
      let (s, test) := condition s slots
      (s, ⟨level, "while True:"⟩ :: body ++ [⟨level + 1, "if not (" ++ test ++ "): break"⟩])
    | .forLoop =>
      let name := loopVariable o s face
      let (s, range) := rangeArguments (s.register name) slots
      let (s, body) := bodyLines o (level + 1) s slots
      (s, ⟨level, "for " ++ name ++ " in range(" ++ range ++ "):"⟩ :: orPass (level + 1) body)
def bodyLines (o : Options) (level : Nat) (s : Scope) : List (Slot Tree) → Scope × List Line
  | [] => (s, [])
  | ⟨n, .body entries⟩ :: slots =>
    if n == "body" then entryLines o level s entries else bodyLines o level s slots
  | ⟨n, .value ..⟩ :: slots => if n == "body" then (s, []) else bodyLines o level s slots
def entryLines (o : Options) (level : Nat) (s : Scope) : List (Entry Tree) → Scope × List Line
  | [] => (s, [])
  | .block t :: entries =>
    let (s, lines) := statement o level s t
    let (s, rest) := entryLines o level s entries
    (s, lines ++ rest)
  | .line text :: entries =>
    let (s', rest) := entryLines o level s entries
    (s', if Text.allBlank text then rest else ⟨level, token s text⟩ :: rest)
def branches (o : Options) (level : Nat) (s : Scope) : List Tree → Scope × List Line
  | [] => (s, [])
  | .node _ face slots _ :: ts =>
    let (s, header) :=
      if face.kind == .elifBranch then
        let (s, test) := condition s slots
        (s, "elif " ++ test ++ ":")
      else (s, "else:")
    let (s, body) := bodyLines o (level + 1) s slots
    let (s, rest) := branches o level s ts
    (s, ⟨level, header⟩ :: orPass (level + 1) body ++ rest)
end

def forestLines (o : Options) (s : Scope) : List Tree → Scope × List Line
  | [] => (s, [])
  | t :: ts =>
    let (s, lines) := statement o 0 s t
    let (s, rest) := forestLines o s ts
    (s, lines ++ rest)

def Line.render (o : Options) (line : Line) : String :=
  String.ofList (List.replicate (line.level * o.indentWidth) ' ') ++ line.text

def render (o : Options) (lines : List Line) : String :=
  let text := "\n".intercalate (lines.map (Line.render o))
  if text.isEmpty then "" else text ++ "\n"

def programOf (o : Options) (trees : List Tree) : Program :=
  let (s, lines) := forestLines o {} trees
  ⟨render o lines, s.names⟩

end BlockCanvas.Python

namespace BlockCanvas

def Canvas.program (c : Canvas) (o : Python.Options) : Python.Program :=
  Python.programOf o (c.forest.map Root.tree)

end BlockCanvas
