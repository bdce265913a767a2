import BlockCanvas.Sandbox.Regex
import BlockCanvas.Sandbox.Tool.Basic

/-!
A program that finds the lines which fit an expression.
-/
namespace BlockCanvas.Sandbox.Tool
open Host

def grepKnown : Known :=
  { plain := "EFGivwxcnqslLhHorRzyabUZ", valued := "efmABC"
    long := [("ignore-case", 'i'), ("invert-match", 'v'), ("count", 'c'), ("line-number", 'n'),
      ("quiet", 'q'), ("silent", 'q'), ("no-messages", 's'), ("extended-regexp", 'E'),
      ("fixed-strings", 'F'), ("word-regexp", 'w'), ("line-regexp", 'x'), ("regexp", 'e'),
      ("files-with-matches", 'l'), ("only-matching", 'o'), ("max-count", 'm'), ("recursive", 'r'), ("file", 'f'),
      ("no-filename", 'h'), ("with-filename", 'H'), ("files-without-match", 'L'),
      ("after-context", 'A'), ("before-context", 'B'), ("context", 'C'), ("text", 'a')] }

structure Wanted where
  expressions : List Regex
  folds : Bool
  words : Bool
  lines : Bool

def Wanted.admits (w : Wanted) (f : Regex.Found) (start : Regex.Place) : Bool :=
  let before := if f.skipped.isEmpty then start.before else f.skipped.getLast?
  let after := f.after.rest.head?
  (!w.words || (!before.any Regex.isWordChar && !after.any Regex.isWordChar)) &&
    (!w.lines || (before.isNone && after.isNone))

def Wanted.firstOf (w : Wanted) (r : Regex) : Nat → List Char → Regex.Place → Option Regex.Found
  | 0, _, _ => none
  | n + 1, skipped, p =>
    match r.search w.folds p with
    | none => none
    | some f =>
      if w.admits f p then some { f with skipped := skipped ++ f.skipped }
      else
        let here := p.advance f.skipped.length
        match here.rest with
        | [] => none
        | c :: _ => w.firstOf r n (skipped ++ f.skipped ++ [c]) (here.advance 1)

/-- The first match of any of the expressions, the longest of those that begin there. -/
def Wanted.next (w : Wanted) (p : Regex.Place) : Option Regex.Found :=
  (w.expressions.filterMap fun r => w.firstOf r (p.rest.length + 1) [] p).foldl
    (fun best f =>
      match best with
      | some b =>
        if f.skipped.length < b.skipped.length ||
            (f.skipped.length == b.skipped.length && b.text.length < f.text.length)
        then some f else best
      | none => some f) none

def Wanted.all (w : Wanted) : Nat → Regex.Place → List (List Char)
  | 0, _ => []
  | n + 1, p =>
    match w.next p with
    | none => []
    | some f =>
      if f.text.isEmpty then
        (if f.after.rest.isEmpty then [] else w.all n (f.after.advance 1))
      else f.text :: w.all n f.after

def grepUsage (s : Setting) : Work :=
  let w := s.idle.printError "Usage: grep [OPTION]... PATTERNS [FILE]...\n"
  { w.printError ("Try '" ++ s.name ++ " --help' for more information.\n") with status := 2 }

def lead (text : String) (isHit : Bool) : Bytes :=
  if text.isEmpty then [] else Text.utf8 (text ++ if isHit then ":" else "-")

def shownLine (found : Options) (label : String) (line : List Char) (n : Nat) (isHit : Bool) : Bytes :=
  lead label isHit ++ lead (if has found 'n' then toString n else "") isHit ++
    ended (Regex.bytes line)

def contextual (found : Options) (label : String) (before after : Nat) (chosen : List Nat)
    (lines : List (List Char × Nat)) : Bytes :=
  let near := lines.filter fun (_, n) => chosen.any fun h => n ≤ h + after && h ≤ n + before
  (near.foldl
    (fun (found' : List Bytes × Option Nat) (line, n) =>
      let gap : Bytes := match found'.2 with
        | some m => if m + 1 < n then Text.utf8 "--\n" else []
        | none => []
      ((gap ++ shownLine found label line n (chosen.contains n)) :: found'.1, some n))
    ([], none)).1.reverse.flatten

def around (found : Options) (letter : Char) : Nat :=
  ((last? found [letter, 'C']).bind fun entry => entry.2.toNat?).getD 0

def grepFile (found : Options) (w : Wanted) (label : String) (data : Bytes) : Bytes × Nat × Bool :=
  let lines := ((bareLines data).map Regex.chars).zipIdx 1
  let chosen := lines.filter fun (line, _) => (w.next { rest := line }).isSome != has found 'v'
  let chosen := match (value? found 'm').bind String.toNat? with
    | some n => chosen.take n
    | none => chosen
  let isBinary := data.contains 0 && !has found 'a'
  let isSilent := has found 'q' || has found 'l' || has found 'L'
  let printed :=
    if isSilent then []
    else if has found 'c' then lead label true ++ Text.utf8 (toString chosen.length ++ "\n")
    else if isBinary then []
    else if has found 'o' then
      if has found 'v' then []
      else chosen.flatMap fun (line, n) =>
        (w.all (line.length + 1) { rest := line }).flatMap fun text =>
          shownLine found label text n true
    else
      let (before, after) := (around found 'B', around found 'A')
      if before + after == 0 then
        chosen.flatMap fun (line, n) => shownLine found label line n true
      else contextual found label before after (chosen.map (·.2)) lines
  (printed, chosen.length, isBinary && !isSilent && !has found 'c' && !chosen.isEmpty)

def filesBelow (fs : Files) : Nat → String → Path → List String
  | 0, _, _ => []
  | n + 1, shown, path =>
    (fs.entries path).flatMap fun name =>
      let text := if shown.isEmpty || shown.endsWith "/" then shown ++ name else shown ++ "/" ++ name
      if fs.node? (path ++ [name]) == some .directory then filesBelow fs n text (path ++ [name])
      else [text]

def searched (s : Setting) (recursive : Bool) (operands : List String) : List (String × Bool) :=
  let depth := s.files.nodes.length + 1
  if !recursive then (if operands.isEmpty then ["-"] else operands).map fun name => (name, false)
  else if operands.isEmpty then
    (filesBelow s.files depth "" s.directory).map fun name => (name, true)
  else operands.flatMap fun name =>
    match s.files.find s.directory name with
    | .ok (path, .directory) => (filesBelow s.files depth name path).map fun name => (name, true)
    | _ => [(name, false)]

def grep (extended fixed : Bool) : Tool := fun s args =>
  match options grepKnown (args.length + 1) args with
  | .error text =>
    let w := (s.idle.complain s.name text 2).printError "Usage: grep [OPTION]... PATTERNS [FILE]...\n"
    w.printError ("Try '" ++ s.name ++ " --help' for more information.\n")
  | .ok (found, operands) =>
    let given := (found.filter (·.1 == 'e')).map (·.2)
    let (texts, operands) := if given.isEmpty && !has found 'f' then
      (operands.take 1, operands.drop 1) else (given, operands)
    if texts.isEmpty && !has found 'f' then grepUsage s
    else
      let listed := (value? found 'f').map (s.files.bytes s.directory)
      match listed with
      | some (.error t) => s.idle.complain s.name (plainly ((value? found 'f').getD "") t) 2
      | _ =>
        let lists : Bytes := match listed with
          | some (.ok data) => data
          | _ => []
        let texts := (texts.flatMap fun text => (text.splitOn "\n").map Text.utf8) ++ bareLines lists
        let isFixed := has found 'F' || (fixed && !has found 'E' && !has found 'G')
        let isExtended := has found 'E' || (extended && !has found 'G')
        let expressions : Except Regex.Fault (List Regex) := texts.mapM fun text =>
          if isFixed then .ok (Regex.ofText (Regex.chars text))
          else Regex.read isExtended (Regex.chars text)
        match expressions with
        | .error fault => s.idle.complain s.name fault.text 2
        | .ok expressions =>
          let wanted : Wanted :=
            { expressions, folds := has found 'i' || has found 'y'
              words := has found 'w', lines := has found 'x' }
          let names := searched s (has found 'r' || has found 'R') operands
          let several := operands.length > 1 || has found 'H'
          let (w, hits) := names.foldl
            (fun (w, hits) (name, isBelow) =>
              match openOperand w s name with
              | .error t =>
                (if has found 's' then { w with status := 2 }
                  else w.complain s.name (plainly name t) 2, hits)
              | .ok (flow, w) =>
                let shown := if name == "-" then "(standard input)" else name
                match flow.all? with
                | none => (w.print ⟨[], .silent⟩, hits)
                | some data =>
                  let labelled := (several || isBelow) && !has found 'h'
                  let (printed, n, hides) :=
                    grepFile found wanted (if labelled then shown else "") data
                  let listed := (has found 'l' && n > 0) || (has found 'L' && n == 0)
                  let w := w.printBytes (printed ++ if listed then Text.utf8 (shown ++ "\n") else [])
                  (if hides then
                    w.printError (s.name ++ ": " ++ shown ++ ": binary file matches\n") else w,
                    hits + n))
            (s.idle, 0)
          if w.status == 2 && !(has found 'q' && hits > 0) then w
          else { w with status := if hits > 0 then 0 else 1 }

end BlockCanvas.Sandbox.Tool
