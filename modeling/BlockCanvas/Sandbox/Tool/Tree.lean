import BlockCanvas.Sandbox.Tool.Values

/-!
Programs that look at directories and change what is in them.
-/
namespace BlockCanvas.Sandbox.Tool
open Host

/-! ## Looking -/

def lsKnown : Known :=
  { plain := "1aAdFprRtUSCxmlhinqsgGokcuBbLHNQvXZ"
    long := [("all", 'a'), ("almost-all", 'A'), ("directory", 'd'), ("reverse", 'r'),
      ("recursive", 'R'), ("classify", 'F')] }

def mark (found : Options) (fs : Files) (path : Path) : String :=
  match fs.node? path with
  | some .directory => if has found 'F' || has found 'p' then "/" else ""
  | some (.file _ true) => if has found 'F' then "*" else ""
  | some (.program _) => if has found 'F' then "*" else ""
  | _ => ""

def listed {α : Type} (found : Options) (names : List α) : List α :=
  if has found 'r' then names.reverse else names

def shownLines (found : Options) (names : List String) : String :=
  if has found 'm' then (if names.isEmpty then "" else ", ".intercalate names ++ "\n")
  else String.join ((listed found names).map (· ++ "\n"))

def directoryText (found : Options) (fs : Files) (path : Path) : String :=
  let dots := if has found 'a' then [".", ".."] else []
  let hidden := has found 'a' || has found 'A'
  let names := (fs.entries path).filter fun name => hidden || !name.startsWith "."
  shownLines found (dots ++ names.map fun name => name ++ mark found fs (path ++ [name]))

def below (found : Options) (fs : Files) : Nat → String → Path → List (String × Path)
  | 0, _, _ => []
  | n + 1, shown, path =>
    (listed found (fs.entries path)).flatMap fun name =>
      let inner := path ++ [name]
      if fs.node? inner == some .directory && !name.startsWith "." then
        let text := if shown.endsWith "/" then shown ++ name else shown ++ "/" ++ name
        (text, inner) :: below found fs n text inner
      else []

def ls : Tool := fun s args =>
  withOptions lsKnown 2 s args fun found operands =>
    let names := if operands.isEmpty then ["."] else operands.mergeSort
    let w := names.foldl (fun w name =>
      match s.files.find s.directory name with
      | .ok _ => w
      | .error t =>
        w.complain s.name ("cannot access " ++ quoted name ++ ": " ++ t.reason) 2) s.idle
    let there := names.filterMap fun name =>
      match s.files.find s.directory name with
      | .ok (path, node) => some (name, path, node)
      | .error _ => none
    let isList (node : Node) : Bool := node == .directory && !has found 'd'
    let single := there.filter fun entry => !isList entry.2.2
    let lists := (there.filter fun entry => isList entry.2.2).flatMap fun entry =>
      (entry.1, entry.2.1) ::
        (if has found 'R' then below found s.files (s.files.nodes.length + 1) entry.1 entry.2.1 else [])
    let w := if single.isEmpty then w
      else w.printText (shownLines found
        (single.map fun entry => entry.1 ++ mark found s.files entry.2.1))
    let titled := names.length > 1 || has found 'R'
    ((listed found lists).zipIdx).foldl (fun w ((name, path), i) =>
      let gap := if i == 0 && single.isEmpty then "" else "\n"
      let head := if titled then gap ++ name ++ ":\n" else ""
      w.printText (head ++ directoryText found s.files path)) w

/-! ## Changing -/

def missing (s : Setting) (what : String) : Work :=
  misused s ("missing " ++ what) 1

/-- The path of a name that is to be made: the directory before it has to be there. -/
def newPath (fs : Files) (directory : Path) (name : String) : Except Trouble Path :=
  let trimmed := String.ofList (name.toList.reverse.dropWhile (· == '/')).reverse
  if trimmed.isEmpty then .error (if name.isEmpty then .noEntry else .exists)
  else fs.locate directory trimmed

def mkdir : Tool := fun s args =>
  withOptions { plain := "pv", valued := "m", long := [("parents", 'p')] } 1 s args
    fun found operands =>
      if operands.isEmpty then missing s "operand"
      else operands.foldl (fun w name =>
        let made := if has found 'p' then w.files.makeDirectories s.directory name
          else do
            let path ← newPath w.files s.directory name
            if (w.files.node? path).isSome then throw .exists
            return w.files.put path .directory
        match made with
        | .ok files => { w with files }
        | .error t => w.complain s.name
            ("cannot create directory " ++ quoted name ++ ": " ++
              (if has found 'p' && t == .notDirectory then Trouble.exists.reason else t.reason)) 1)
        s.idle

def rmdir : Tool := fun s args =>
  withOptions { plain := "pv" } 1 s args fun _ operands =>
    if operands.isEmpty then missing s "operand"
    else operands.foldl (fun w name =>
      let removed : Except Trouble Files := do
        let (path, node) ← w.files.find s.directory name
        if node != .directory then throw .notDirectory
        if !(w.files.entries path).isEmpty then throw .notEmpty
        return w.files.remove path
      match removed with
      | .ok files => { w with files }
      | .error t => w.complain s.name
          ("failed to remove " ++ quoted name ++ ": " ++ t.reason) 1) s.idle

def rm : Tool := fun s args =>
  withOptions { plain := "rRfdiIv", long := [("force", 'f'), ("recursive", 'r')] } 1 s args
    fun found operands =>
      if operands.isEmpty then (if has found 'f' then s.idle else missing s "operand")
      else operands.foldl (fun w name =>
        match w.files.find s.directory name with
        | .error t =>
          if has found 'f' && (t == .noEntry || t == .notDirectory) then w
          else w.complain s.name ("cannot remove " ++ quoted name ++ ": " ++ t.reason) 1
        | .ok (path, .directory) =>
          if has found 'r' || has found 'R' ||
              (has found 'd' && (w.files.entries path).isEmpty) then
            { w with files := w.files.remove path }
          else w.complain s.name ("cannot remove " ++ quoted name ++ ": Is a directory") 1
        | .ok (path, _) =>
          let w := { w with files := w.files.remove path }
          if has found 'v' then w.printText ("removed " ++ quoted name ++ "\n") else w) s.idle

def touch : Tool := fun s args =>
  withOptions { plain := "acmfh", valued := "drt" } 1 s args fun found operands =>
    if operands.isEmpty then missing s "file operand"
    else operands.foldl (fun w name =>
      match w.files.find s.directory name with
      | .ok _ => w
      | .error .noEntry =>
        if has found 'c' then w
        else
          match w.files.write s.directory name [] false with
          | .ok files => { w with files }
          | .error t => w.complain s.name ("cannot touch " ++ quoted name ++ ": " ++ t.reason) 1
      | .error t => w.complain s.name ("cannot touch " ++ quoted name ++ ": " ++ t.reason) 1) s.idle

def destination (fs : Files) (directory : Path) (source target : String) :
    Except Trouble (Path × String) := do
  if fs.isDirectory directory target then
    let (path, _) ← fs.find directory target
    let name := lastName source
    let shown := if target.endsWith "/" then target ++ name else target ++ "/" ++ name
    return (path ++ [name], shown)
  else return (← fs.locate directory target, target)

def transfer (s : Setting) (operands : List String) (moves recursive : Bool) : Work :=
  match operands.reverse with
  | [] => missing s "file operand"
  | [only] => misused s ("missing destination file operand after " ++ quoted only) 1
  | target :: rest =>
    let sources := rest.reverse
    if sources.length > 1 && !s.files.isDirectory s.directory target then
      s.idle.complain s.name ("target " ++ quoted target ++
        (if (s.files.find s.directory target).isOk then " is not a directory"
          else ": No such file or directory")) 1
    else sources.foldl (fun w source =>
      match w.files.find s.directory source with
      | .error t => w.complain s.name ("cannot stat " ++ quoted source ++ ": " ++ t.reason) 1
      | .ok (path, node) =>
        if node == .directory && !moves && !recursive then
          w.complain s.name ("-r not specified; omitting directory " ++ quoted source) 1
        else
          match destination w.files s.directory source target with
          | .error t =>
            let text := if moves then "cannot move " ++ quoted source ++ " to " ++ quoted target
              else "cannot create regular file " ++ quoted target
            w.complain s.name (text ++ ": " ++ t.reason) 1
          | .ok (goal, shown) =>
            let same := quoted source ++ " and " ++ quoted shown ++ " are the same file"
            match node, w.files.node? goal with
            | .directory, some (.file _ _) =>
              w.complain s.name ((if moves then "cannot overwrite non-directory "
                else "cannot overwrite non-directory ") ++ quoted shown ++ " with directory " ++
                quoted source) 1
            | .file data executable, there =>
              if path == goal then w.complain s.name same 1
              else
                match there with
                | some (.device d) =>
                  if moves then w
                  else if d == .full && !data.isEmpty then
                    w.complain s.name
                      ("error writing " ++ quoted shown ++ ": " ++ Trouble.noSpace.reason) 1
                  else w
                | _ =>
                  let files := w.files.put goal (.file data executable)
                  { w with files := if moves then files.remove path else files }
            | _, _ =>
              if path == goal then w.complain s.name same 1
              else
                let node : Node := match node with
                  | .program _ => .file [] true
                  | .device _ => .file [] false
                  | node => node
                let files := if node == .directory then w.files.copied path goal
                  else w.files.put goal node
                { w with files := if moves then files.remove path else files }) s.idle

def cp : Tool := fun s args =>
  withOptions { plain := "rRafipvT", long := [("recursive", 'r'), ("archive", 'a')] } 1 s args
    fun found operands =>
      transfer s operands false (has found 'r' || has found 'R' || has found 'a')

def mv : Tool := fun s args =>
  withOptions { plain := "finvT", long := [("force", 'f')] } 1 s args fun _ operands =>
    transfer s operands true true

def executableBy (mode : String) (before : Bool) : Option Bool :=
  let cs := mode.toList
  if !cs.isEmpty && cs.all isOctal then some (cs.any fun c => (c.toNat - 48) % 2 == 1)
  else
    (mode.splitOn ",").foldlM (fun executable clause =>
      let cs := clause.toList.dropWhile fun c => c == 'u' || c == 'g' || c == 'o' || c == 'a'
      match cs with
      | '+' :: letters => some (executable || letters.contains 'x')
      | '-' :: letters => some (executable && !letters.contains 'x')
      | '=' :: letters => some (letters.contains 'x')
      | _ => none) before

def chmod : Tool := fun s args =>
  let isMode (arg : String) : Bool := arg.startsWith "-" && (executableBy arg false).isSome
  let (flags, rest) := (args.takeWhile fun a => a.startsWith "-" && !isMode a,
    args.dropWhile fun a => a.startsWith "-" && !isMode a)
  match rest with
  | [] => missing s "operand"
  | [mode] => misused s ("missing operand after " ++ quoted mode) 1
  | mode :: names =>
    match executableBy mode false with
    | none => misused s ("invalid mode: " ++ quoted mode) 1
    | some _ => names.foldl (fun w name =>
        match w.files.find s.directory name with
        | .ok (path, .file data executable) =>
          let changed := (executableBy mode executable).getD executable
          { w with files := w.files.put path (.file data changed) }
        | .ok _ => w
        | .error t =>
          if flags.contains "-f" then { w with status := 1 }
          else w.complain s.name ("cannot access " ++ quoted name ++ ": " ++ t.reason) 1) s.idle

end BlockCanvas.Sandbox.Tool
