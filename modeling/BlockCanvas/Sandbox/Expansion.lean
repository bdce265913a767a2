import BlockCanvas.Sandbox.Builtin

/-!
What becomes of a word that is expanded: characters that are quoted or not, split into fields where
separators stand among them, and names of files where a field is a pattern.
-/
namespace BlockCanvas.Sandbox
open Host

inductive Cell where
  | char (c : Char) (quoted splits : Bool)
  | gap
  | kept
  deriving DecidableEq, Repr

namespace Cell

def ofText (text : String) (quoted : Bool) : List Cell :=
  (if quoted then [.kept] else []) ++ text.toList.map fun c => .char c quoted (!quoted)

def ofArguments (arguments : List String) (quoted : Bool) : List Cell :=
  [Cell.gap].intercalate (arguments.map fun text => ofText text quoted)

def chars (cells : List Cell) : List (Char × Bool) :=
  cells.filterMap fun
    | .char c quoted _ => some (c, quoted)
    | .gap => some (' ', true)
    | .kept => none

def text (cells : List Cell) : String :=
  String.ofList ((chars cells).map (·.1))

end Cell

abbrev Field := List (Char × Bool)

/-- Fields that are complete, the newest first, and the one that is being written, in reverse. After
blanks a separator other than a blank ends no further field. -/
structure Splitting where
  complete : List Field := []
  current : Option Field := none
  afterBlank : Bool := false

namespace Splitting

def finish (s : Splitting) : Splitting :=
  match s.current with
  | some field => { s with complete := field.reverse :: s.complete, current := none }
  | none => s

def step (f : Builtin.Separators) (s : Splitting) : Cell → Splitting
  | .kept => { s with current := some (s.current.getD []), afterBlank := false }
  | .gap => { s.finish with afterBlank := false }
  | .char c quoted splits =>
    if splits && f.isBlank c then
      if s.current.isSome then { s.finish with afterBlank := true } else s
    else if splits && f.isMark c then
      if s.current.isSome then s.finish
      else if s.afterBlank then { s with afterBlank := false }
      else { s with complete := [] :: s.complete }
    else { s with current := some ((c, quoted) :: s.current.getD []), afterBlank := false }

end Splitting

def fieldsOf (f : Builtin.Separators) (cells : List Cell) : List Field :=
  (cells.foldl (Splitting.step f) {}).finish.complete.reverse

def Field.text (f : Field) : String :=
  String.ofList (f.map (·.1))

/-! ## Names of files -/

def Field.names (f : Field) : List Field :=
  let (names, first) := f.foldr
    (fun c (found : List Field × Field) =>
      if c.1 == '/' then (found.2 :: found.1, []) else (found.1, c :: found.2))
    ([], [])
  first :: names

abbrev Found := String × Path

def furtherBy (fs : Files) (stroke : String) (name : Field) (found : Found) : List Found :=
  let p := Pattern.read name
  let (shown, path) := found
  if p.isOpen then
    if fs.node? path != some .directory then []
    else
      let hidden := (name.head?).any fun c => c.1 == '.'
      (([".", ".."] ++ fs.entries path).filter fun entry =>
        (hidden || !entry.startsWith ".") && p.fits entry.toList).map fun entry =>
          (shown ++ stroke ++ entry, (fs.step path entry).toOption.getD path)
  else
    match fs.step path (Field.text name) with
    | .ok next =>
      if (fs.node? next).isSome then [(shown ++ stroke ++ Field.text name, next)] else []
    | .error _ => []

def Field.expanded (fs : Files) (directory : Path) (f : Field) : List String :=
  if !(Pattern.read f).isOpen then [f.text]
  else
    let names := f.names
    let absolute := names.length > 1 && (names.headD []).isEmpty
    let start : Found := ("", if absolute then [] else directory)
    let found := (names.zipIdx).foldl
      (fun found (name, i) =>
        if i == 0 && absolute then found
        else found.flatMap (furtherBy fs (if i == 0 then "" else "/") name))
      [start]
    if found.isEmpty then [f.text] else (found.map (·.1)).mergeSort

end BlockCanvas.Sandbox
