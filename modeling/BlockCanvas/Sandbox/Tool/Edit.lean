import BlockCanvas.Sandbox.LineScript
import BlockCanvas.Sandbox.Tool.Basic

/-!
A program that edits lines by a script: each line goes through the steps of the script and is printed
at the end.
-/
namespace BlockCanvas.Sandbox.Tool
open Host

open LineScript

structure Editing where
  rest : List String
  lacksFeed : Bool
  current : String := ""
  kept : String := ""
  count : Nat := 0
  printed : List String := []
  isOpen : Bool := false
  queue : List String := []
  begun : List (Nat × Option Nat) := []
  changed : Bool := false
  status : Nat := 0

inductive Onward where
  | step
  | label (name : String)
  | line (prints : Bool)
  | again
  | finish (prints : Bool)

namespace Editing

def printText (e : Editing) (text : String) : Editing :=
  { e with printed := text :: e.printed, isOpen := false }

def print (e : Editing) (text : String) : Editing :=
  { e.printText (text ++ "\n") with isOpen := e.lacksFeed && e.rest.isEmpty }

def output (e : Editing) : List Char :=
  let cs := (String.join e.printed.reverse).toList
  if e.isOpen then cs.dropLast else cs

def fits (e : Editing) : Address → Bool
  | .line n => e.count == n
  | .last => e.rest.isEmpty
  | .fits r folds => (r.search folds { rest := e.current.toList }).isSome
  | .every first step => if step == 0 then e.count == first
      else first ≤ e.count && (e.count - first) % step == 0
  | .further _ => false

def within (e : Editing) (k : Nat) (r : Range) : Bool × Editing :=
  let without : List (Nat × Option Nat) := e.begun.filter fun entry => entry.1 != k
  let (answer, e) : Bool × Editing := match r.start, r.finish with
    | none, _ => (true, e)
    | some start, none => (e.fits start, e)
    | some start, some finish =>
      match e.begun.lookup k with
      | some (some n) =>
        if e.count < n then (true, e) else (e.count == n, { e with begun := without })
      | some none => (true, if e.fits finish then { e with begun := without } else e)
      | none =>
        let starts := match start, finish with
          | .line 0, .fits _ _ => e.count == 1
          | _, _ => e.fits start
        if starts then
          let last? : Option Nat := match finish with
            | .line n => some n
            | .further n => some (e.count + n)
            | _ => none
          let ends : Bool := match start, finish, last? with
            | _, _, some n => n ≤ e.count
            | .line 0, finish, none => e.fits finish
            | _, .last, none => e.fits .last
            | _, _, none => false
          (true, if ends then e else { e with begun := (k, last?) :: e.begun })
        else (false, e)
  (answer != r.negated, e)

def withinAll (e : Editing) : List (Nat × Range) → Bool × Editing
  | [] => (true, e)
  | (k, r) :: outer =>
    let (answer, e) := e.withinAll outer
    if answer then e.within k r else (false, e)

structure Casing where
  next : Option Char := none
  all : Char := 'E'

def cased (letter c : Char) : Char :=
  if letter.toUpper == 'U' then c.toUpper else if letter.toUpper == 'L' then c.toLower else c

def Casing.change (k : Casing) : List Char → Casing × List Char
  | [] => (k, [])
  | c :: cs => ({ k with next := none }, cased (k.next.getD k.all) c :: cs.map (cased k.all))

def inserted (f : Regex.Found) : Casing → List Insert → List Char
  | _, [] => []
  | k, .casing letter :: parts =>
    inserted f (if letter.isUpper then { next := none, all := letter }
      else { k with next := some letter }) parts
  | k, part :: parts =>
    let (k, text) := k.change (match part with
      | .char c => [c]
      | .group 0 => f.text
      | .group n => (f.groups.lookup n).getD []
      | .casing _ => [])
    text ++ inserted f k parts

/-- The text with matches replaced from the `nth` on, and whether any was. After a match the next may
not be empty at the same place. -/
def replaced (r : Regex) (folds : Bool) (parts : List Insert) (all : Bool) (nth : Nat) :
    Nat → Nat → Bool → Regex.Place → List Char × Bool
  | 0, _, _, p => (p.rest, false)
  | n + 1, k, touching, p =>
    match r.search folds p with
    | none => (p.rest, false)
    | some f =>
      if f.text.isEmpty && f.skipped.isEmpty && touching then
        match p.rest with
        | [] => ([], false)
        | c :: _ =>
          let (more, any) := replaced r folds parts all nth n k false (p.advance 1)
          (c :: more, any)
      else
        let here := nth ≤ k && (all || k == nth)
        let text := if here then inserted f {} parts else f.text
        if here && !all then (f.skipped ++ text ++ f.after.rest, true)
        else
          let (next, lead) := if f.text.isEmpty then
            (f.after.advance 1, f.after.rest.take 1) else (f.after, [])
          if f.text.isEmpty && f.after.rest.isEmpty then (f.skipped ++ text, here)
          else
            let (more, any) := replaced r folds parts all nth n (k + 1) (lead.isEmpty) next
            (f.skipped ++ text ++ lead ++ more, here || any)

def firstLine (text : String) : String :=
  String.ofList (text.toList.takeWhile (· != '\n'))

def advance (e : Editing) : Option Editing :=
  match e.rest with
  | [] => none
  | line :: rest => some { e with rest, current := line, count := e.count + 1 }

def flush (e : Editing) : Editing :=
  if e.queue.isEmpty then e
  else { e with printed := e.queue ++ e.printed, queue := [], isOpen := false }

def apply (e : Editing) (quiet : Bool) (inRange : Bool) : Edit → Editing × Onward
  | .substitute r folds parts all nth prints =>
    let (text, any) := replaced r folds parts all nth (e.current.length + 2) 1 false
      { rest := e.current.toList }
    if any then
      let e := { e with current := String.ofList text, changed := true }
      (if prints then e.print e.current else e, .step)
    else (e, .step)
  | .print => (e.print e.current, .step)
  | .printFirst => (e.print (firstLine e.current), .step)
  | .delete => (e, .line false)
  | .deleteFirst =>
    let rest := e.current.toList.dropWhile (· != '\n')
    if rest.isEmpty then (e, .line false)
    else ({ e with current := String.ofList rest.tail }, .again)
  | .quit silent status => ({ e with status }, .finish (!silent))
  | .next =>
    if e.rest.isEmpty then (e, .finish true)
    else
      match (if quiet then e else e.print e.current).flush.advance with
      | some e => (e, .step)
      | none => (e, .finish true)
  | .join =>
    match e.flush.advance with
    | some next => ({ next with current := e.current ++ "\n" ++ next.current }, .step)
    | none => (e, .finish true)
  | .number => (e.printText (toString e.count ++ "\n"), .step)
  | .swap pairs =>
    ({ e with current := String.ofList (e.current.toList.map fun c => (pairs.lookup c).getD c) }, .step)
  | .after text => ({ e with queue := text :: e.queue }, .step)
  | .before text => (e.printText text, .step)
  | .change text => (if inRange then e else e.printText text, .line false)
  | .hold adds =>
    ({ e with kept := if adds then e.kept ++ "\n" ++ e.current else e.current }, .step)
  | .get adds =>
    ({ e with current := if adds then e.current ++ "\n" ++ e.kept else e.kept }, .step)
  | .exchange => ({ e with current := e.kept, kept := e.current }, .step)
  | .label _ => (e, .step)
  | .jump name none => (e, .label name)
  | .jump name (some wanted) =>
    if e.changed == wanted then ({ e with changed := false }, .label name)
    else ({ e with changed := false }, .step)

def behind (name : String) : List Step → List Step
  | [] => []
  | s :: steps => if s.edit.isLabel name then steps else behind name steps

/-- Takes a line through steps of a script. Nothing comes out if the number of steps runs out. -/
def through (quiet : Bool) (script : List Step) : Nat → List Step → Editing → Option (Editing × Onward)
  | 0, _, _ => none
  | _ + 1, [], e => some (e, .line true)
  | n + 1, s :: steps, e =>
    let (answer, e) := e.withinAll s.ranges
    if answer then
      let inRange := s.ranges.head?.any fun (k, _) => (e.begun.lookup k).isSome
      match e.apply quiet inRange s.edit with
      | (e, .step) => through quiet script n steps e
      | (e, .label name) => through quiet script n (if name.isEmpty then [] else behind name script) e
      | found => some found
    else through quiet script n steps e

def all (quiet : Bool) (script : List Step) (most : Nat) : Nat → Bool → Editing → Option Editing
  | 0, _, _ => none
  | n + 1, reads, e =>
    match if reads then { e with changed := false }.advance else some e with
    | none => some e
    | some e =>
      let finishLine (e : Editing) (prints : Bool) : Editing :=
        (if prints && !quiet then e.print e.current else e).flush
      match through quiet script most script e with
      | none => none
      | some (e, .line prints) => all quiet script most n true (finishLine e prints)
      | some (e, .again) => all quiet script most n false (finishLine e false)
      | some (e, .finish prints) => some (finishLine e prints)
      | some (e, _) => all quiet script most n true (finishLine e true)

end Editing

def missingLabel? (steps : List Step) : Option String :=
  steps.findSome? fun s =>
    match s.edit with
    | .jump name _ =>
      if name.isEmpty || steps.any (·.edit.isLabel name) then none else some name
    | _ => none

def edited (quiet : Bool) (script : List Step) (data : Bytes) : Flow × Nat :=
  let lines := (bareLines data).map fun line => String.ofList (Regex.chars line)
  let size := data.length + lines.length + script.length + 1
  let start : Editing := { rest := lines, lacksFeed := !data.isEmpty && data.getLast? != some 10 }
  match Editing.all quiet script (64 * size + 4096) (2 * size) true start with
  | some e => (.ofBytes (Regex.bytes e.output), e.status)
  | none => (⟨[], .silent⟩, 0)

def sedKnown : Known :=
  { plain := "nErsuzi", valued := "ef"
    long := [("quiet", 'n'), ("silent", 'n'), ("expression", 'e'), ("regexp-extended", 'E'),
      ("in-place", 'i'), ("separate", 's'), ("file", 'f')] }

def sedUsage (s : Setting) : Work :=
  { s.idle.printError ("Usage: " ++ s.name ++
      " [OPTION]... \x7bscript-only-if-no-other-script\x7d [input-file]...\n") with status := 1 }

def editInPlace (s : Setting) (quiet : Bool) (steps : List Step) (operands : List String) : Work :=
  operands.foldl
    (fun w name =>
      match s.files.find s.directory name with
      | .ok (path, .file data executable) =>
        let (flow, status) := edited quiet steps data
        { w with files := w.files.put path (.file flow.data executable), status := max w.status status }
      | .ok _ => w.complain s.name ("couldn't edit " ++ name ++ ": not a regular file") 4
      | .error t => w.complain s.name ("can't read " ++ plainly name t) 2)
    s.idle

def sed : Tool := fun s args =>
  withOptions sedKnown 1 s args fun found operands =>
    let given := (found.filter (·.1 == 'e')).map (·.2)
    let fromFile : Except Trouble String := match value? found 'f' with
      | some name => (s.files.bytes s.directory name).map fun data => String.ofList (Regex.chars data)
      | none => .ok ""
    let needed := given.isEmpty && (value? found 'f').isNone
    let (scripts, operands) := if needed then (operands.take 1, operands.drop 1)
      else (given, operands)
    match fromFile with
    | .error t =>
      s.idle.complain s.name ("couldn't open file " ++ plainly ((value? found 'f').getD "") t) 1
    | .ok more =>
      if needed && scripts.isEmpty then sedUsage s
      else
        let script := Regex.chars (Text.utf8 ("\n".intercalate scripts)) ++
          (if more.isEmpty then [] else (if scripts.isEmpty then [] else ['\n']) ++ more.toList)
        match steps (has found 'E' || has found 'r') (script.length + 2) 0 [] script with
        | .error fault =>
          s.idle.complain s.name ("-e expression #1, char " ++
            toString (fault.left.elim 0 (script.length - ·)) ++ ": " ++ fault.text) 1
        | .ok steps =>
          let quiet := has found 'n' || script.take 3 == ['#', 'n', '\n']
          match missingLabel? steps with
          | some name =>
            s.idle.complain s.name ("can't find label for jump to \x60" ++ name ++ "'") 1
          | none =>
            if has found 'i' then editInPlace s quiet steps operands
            else
              let complaint (name : String) (t : Trouble) : String :=
                if t == .isDirectory then "read error on " ++ plainly name t
                else "can't read " ++ plainly name t
              let w := eachInput s complaint operands fun w _ flow => w.print flow
              let namesDirectory := operands.any (s.files.isDirectory s.directory)
              let w := if w.status == 0 then w
                else { w with status := if namesDirectory then 4 else 2 }
              match w.out.all? with
              | none => w.mapOut fun _ => ⟨[], .silent⟩
              | some data =>
                let (flow, status) := edited quiet steps data
                { w.mapOut fun _ => flow with status := max w.status status }

end BlockCanvas.Sandbox.Tool
