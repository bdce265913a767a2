import BlockCanvas.Sandbox.Machine
import BlockCanvas.Sandbox.Reader

/-!
Commands of the shell that change the shell itself: its directory, variables, arguments and options,
and those that leave loops, functions and the shell. A special one ends the shell when it is misused.
-/
namespace BlockCanvas.Sandbox
open Host

abbrev Builtin := List String → Run Unit

namespace Builtin

open Machine

def complainAs (name text : String) (status : Nat) : Run Unit :=
  complain (name ++ ": " ++ text) status

def failAs {α : Type} (name text : String) : Run α := do
  complainAs name text 2
  throw (.exit 2)

def illegalNumber (text : String) : String :=
  "Illegal number: " ++ text

def illegalOption (letter : Char) : String :=
  "Illegal option -" ++ String.singleton letter

def natural? (text : String) : Option Nat :=
  let cs := text.toList
  if cs.isEmpty || !cs.all Char.isDigit then none else some (Decimal.natOf cs)

def single (value : String) : String :=
  "'" ++ value.replace "'" "'\"'\"'" ++ "'"

/-! ## Directories -/

def simplified (path : Path) (names : List String) : Path :=
  names.foldl (fun path name =>
    if name == "" || name == "." then path
    else if name == ".." then path.dropLast
    else path ++ [name]) path

def cd : Builtin := fun args => do
  let args := args.dropWhile fun arg => arg == "-L" || arg == "-P" || arg == "--"
  let s ← current
  let target := match args with
    | [] => (bound? s "HOME").getD ""
    | "-" :: _ => (bound? s "OLDPWD").getD "."
    | name :: _ => name
  match args, target.toList with
  | "-" :: _, _ => go s target true
  | name :: _, '-' :: letter :: _ =>
    if name == target then complainAs "cd" (illegalOption letter) 2 else go s target false
  | _, _ => go s target false
where
  go (s : Shell) (target : String) (tell : Bool) : Run Unit := do
    let files := (← get).files
    let here := if Files.isAbsolute target then [] else s.directory
    let path := simplified here (Files.names target)
    if target.isEmpty || files.isDirectory [] (Files.written path) then
      setVariable "OLDPWD" { value := some (Files.written s.directory), exported := true }
      setVariable "PWD" { value := some (Files.written path), exported := true }
      onShell fun s => { s with directory := path }
      setStatus 0
      if tell then say 1 (Files.written path ++ "\n")
    else complainAs "cd" ("can't cd to " ++ target) 2

/-! ## Variables -/

def setting (text : String) : String × Option String :=
  let cs := text.toList
  let name := cs.takeWhile (· != '=')
  (String.ofList name, match cs.drop name.length with
    | _ :: value => some (String.ofList value)
    | [] => none)

def markAll (command : String) (mark : Variable → Variable) (args : List String) : Run Unit := do
  setStatus 0
  args.forM fun arg => do
    let (name, value?) := setting arg
    if !Script.isName name then failAs command (name ++ ": bad variable name")
    else
      match value? with
      | some value =>
        let fixed := (((← current).bindings.lookup name).getD {}).fixed
        if fixed then failAs command (name ++ ": is read only")
        else
          assign name value
          setVariable name (mark (((← current).bindings.lookup name).getD {}))
      | none => setVariable name (mark (((← current).bindings.lookup name).getD {}))

def listMarked (command : String) (marked : Variable → Bool) : Run Unit := do
  let found := ((← current).bindings.filter fun entry => marked entry.2).mergeSort
    fun a b => a.1 ≤ b.1
  found.forM fun (name, v) =>
    say 1 (command ++ " " ++ name ++ (match v.value with
      | some value => "=" ++ single value
      | none => "") ++ "\n")
  setStatus 0

def marking (command : String) (mark : Variable → Variable) (marked : Variable → Bool) : Builtin :=
  fun args =>
    match args.filter (· != "--") with
    | [] => listMarked command marked
    | "-p" :: _ => listMarked command marked
    | args => markAll command mark args

def export' : Builtin :=
  marking "export" (fun v => { v with exported := true }) Variable.exported

def readonly : Builtin :=
  marking "readonly" (fun v => { v with fixed := true }) Variable.fixed

def unset : Builtin := fun args => do
  setStatus 0
  let functions := args.head? == some "-f"
  (args.filter fun arg => arg != "-f" && arg != "-v").forM fun name => do
    if functions then
      onShell fun s => { s with functions := s.functions.filter fun entry => entry.1 != name }
    else if !Script.isName name then failAs "unset" (name ++ ": bad variable name")
    else if (((← current).bindings.lookup name).getD {}).fixed then
      failAs "unset" (name ++ ": is read only")
    else restoreVariable name none

def local' : Builtin := fun args => do
  let s ← current
  match s.hidden with
  | [] => failAs "local" "not in a function"
  | _ =>
    setStatus 0
    args.forM fun arg => do
      let (name, value?) := setting arg
      if !Script.isName name then failAs "local" (name ++ ": bad variable name")
      else
        onShell fun s =>
          match s.hidden with
          | frame :: outer =>
            if frame.any fun entry => entry.1 == name then s
            else { s with hidden := ((name, s.bindings.lookup name) :: frame) :: outer }
          | [] => s
        match value? with
        | some value => assign name value
        | none => pure ()

/-! ## Arguments and options -/

def longOptions : List (String × Char) :=
  [("errexit", 'e'), ("noglob", 'f'), ("ignoreeof", 'I'), ("interactive", 'i'), ("monitor", 'm'),
    ("noexec", 'n'), ("stdin", 's'), ("xtrace", 'x'), ("verbose", 'v'), ("vi", 'V'), ("emacs", 'E'),
    ("noclobber", 'C'), ("allexport", 'a'), ("notify", 'b'), ("nounset", 'u'), ("privileged", 'p')]

def isOption (letter : Char) : Bool :=
  longOptions.any fun entry => entry.2 == letter

def withOption (options : List Char) (letter : Char) (on : Bool) : List Char :=
  if on then (if options.contains letter then options else options ++ [letter])
  else options.filter (· != letter)

/-- Options at the start of arguments, which letters do not know, and the arguments that follow.
Whether arguments are to be set at all is told too: not if there are options alone. -/
def readOptions (extra : List Char) : Nat → List Char → List String →
    Except String (List Char × List String × Bool)
  | 0, options, args => .ok (options, args, !args.isEmpty)
  | _ + 1, options, [] => .ok (options, [], false)
  | n + 1, options, arg :: args =>
    match arg.toList with
    | '-' :: '-' :: [] => .ok (options, args, true)
    | sign :: c :: cs =>
      if sign == '-' || sign == '+' then
        if (c :: cs) == ['o'] then
          match args with
          | [] => .ok (options, [], false)
          | name :: args =>
            match longOptions.lookup name with
            | some letter => readOptions extra n (withOption options letter (sign == '-')) args
            | none => .error ("Illegal option " ++ String.singleton sign ++ "o " ++ name)
        else
          match (c :: cs).find? fun letter => !isOption letter && !extra.contains letter with
          | some letter => .error ("Illegal option " ++ String.singleton sign ++ String.singleton letter)
          | none =>
            readOptions extra n
              ((c :: cs).foldl (fun options letter => withOption options letter (sign == '-')) options)
              args
      else .ok (options, arg :: args, true)
    | ['-'] => .ok (options, args, !args.isEmpty)
    | _ => .ok (options, arg :: args, true)

def set' : Builtin := fun args => do
  let s ← current
  match args with
  | [] =>
    let found := s.bindings.mergeSort fun a b => a.1 ≤ b.1
    found.forM fun (name, v) =>
      match v.value with
      | some value => say 1 (name ++ "=" ++ single value ++ "\n")
      | none => pure ()
    setStatus 0
  | ["-o"] =>
    say 1 "Current option settings\n"
    longOptions.forM fun (name, letter) =>
      let gap := String.ofList (List.replicate (16 - name.length) ' ')
      say 1 (name ++ gap ++ (if s.options.contains letter then "on" else "off") ++ "\n")
    setStatus 0
  | args =>
    match readOptions [] (args.length + 1) s.options args with
    | .error text => failAs "set" text
    | .ok (options, rest, replaced) =>
      onShell fun s =>
        { s with options, arguments := if replaced then rest else s.arguments, status := 0 }

def shift : Builtin := fun args => do
  let s ← current
  let text := args.headD "1"
  match natural? text with
  | none => failAs "shift" (illegalNumber text)
  | some n =>
    if s.arguments.length < n then failAs "shift" "can't shift that many"
    else onShell fun s => { s with arguments := s.arguments.drop n, status := 0 }

def getopts : Builtin := fun args => do
  match args with
  | letters :: name :: rest =>
    let s ← current
    let words := if rest.isEmpty then s.arguments else rest
    let index := (((bound? s "OPTIND").bind natural?).getD 1) - 1
    let silent := letters.startsWith ":"
    let known := letters.toList
    let word := ((words[index]?).getD "").toList
    let offset := if s.optionOffset == 0 || word.length ≤ s.optionOffset then 1 else s.optionOffset
    let finish (index offset : Nat) (letter : String) (status : Nat) : Run Unit := do
      onShell fun s => { s with optionOffset := offset }
      assign "OPTIND" (toString (index + 1))
      assign name letter
      setStatus status
    if index < words.length && word.head? == some '-' && word.length > 1 && word != ['-', '-'] then
      let c := (word[offset]?).getD '?'
      let more := offset + 1 < word.length
      let (index', offset') := if more then (index, offset + 1) else (index + 1, 0)
      match (known.zip (known.drop 1 ++ [' '])).find? fun pair => pair.1 == c && c != ':' with
      | none =>
        if silent then assign "OPTARG" (String.singleton c)
        else
          restoreVariable "OPTARG" none
          say 2 ("Illegal option -" ++ String.singleton c ++ "\n")
        finish index' offset' "?" 0
      | some (_, ':') =>
        if more then
          assign "OPTARG" (String.ofList (word.drop (offset + 1)))
          finish (index + 1) 0 (String.singleton c) 0
        else
          match words[index + 1]? with
          | some value =>
            assign "OPTARG" value
            finish (index + 2) 0 (String.singleton c) 0
          | none =>
            if silent then
              assign "OPTARG" (String.singleton c)
              finish (index + 1) 0 ":" 0
            else
              restoreVariable "OPTARG" none
              say 2 ("No arg for -" ++ String.singleton c ++ " option\n")
              finish (index + 1) 0 "?" 0
      | some _ =>
        assign "OPTARG" ""
        finish index' offset' (String.singleton c) 0
    else
      let index := if word == ['-', '-'] && index < words.length then index + 1 else index
      finish index 0 "?" 1
  | _ => complainAs "getopts" "Usage: getopts optstring var [arg...]" 2

/-! ## Reading -/

def protectedLine (raw : Bool) : List Char → List (Char × Bool) × Bool
  | [] => ([], false)
  | ['\\'] => if raw then ([('\\', false)], false) else ([], true)
  | c :: d :: cs =>
    if c == '\\' && !raw then
      let (rest, goesOn) := protectedLine raw cs
      ((d, true) :: rest, goesOn)
    else
      let (rest, goesOn) := protectedLine raw (d :: cs)
      ((c, false) :: rest, goesOn)
  | [c] => ([(c, false)], false)

/-- What separates fields: the characters of a variable, of which blanks count together. -/
structure Separators where
  text : List Char

namespace Separators

def of (s : Shell) : Separators :=
  ⟨((bound? s "IFS").getD " \t\n").toList⟩

def isBlank (f : Separators) (c : Char) : Bool :=
  f.text.contains c && (c == ' ' || c == '\t' || c == '\n')

def isMark (f : Separators) (c : Char) : Bool :=
  f.text.contains c && !(c == ' ' || c == '\t' || c == '\n')

end Separators

def afterSeparator (f : Separators) (cs : List (Char × Bool)) : List (Char × Bool) :=
  let isBlank (entry : Char × Bool) : Bool := !entry.2 && f.isBlank entry.1
  let cs := cs.dropWhile isBlank
  match cs with
  | (c, quoted) :: rest => if !quoted && f.isMark c then rest.dropWhile isBlank else cs
  | [] => []

def shared (f : Separators) : Nat → List (Char × Bool) → List String
  | 0, _ => []
  | n + 1, cs =>
    let isBlank (entry : Char × Bool) : Bool := !entry.2 && f.isBlank entry.1
    let ends (entry : Char × Bool) : Bool := !entry.2 && f.text.contains entry.1
    let field := cs.takeWhile (fun entry => !ends entry)
    let rest := afterSeparator f (cs.drop field.length)
    let text (cs : List (Char × Bool)) : String := String.ofList (cs.map (·.1))
    if n == 0 then
      [text (if rest.isEmpty then field else (cs.reverse.dropWhile isBlank).reverse)]
    else text field :: shared f n rest

def readLine (raw : Bool) : Nat → Run (List (Char × Bool) × Bool)
  | 0 => throw .never
  | n + 1 => do
    let feed ← feedOf 0
    let (line, rest) := feed.flow.cutLines 1
    let whole := Tool.hasFeed line.data
    if !whole && !line.ends then throw .never
    takeBytes 0 feed line.data.length rest
    if !whole then waitUntil feed.ready
    let cs := (Text.lossy (Tool.withoutFeed line.data)).toList.filter (· != '\x00')
    let (here, goesOn) := protectedLine raw cs
    if goesOn && whole then
      let (more, whole) ← readLine raw n
      return (here ++ more, whole)
    else return (here, whole)

def read' : Builtin := fun args => do
  let raw := args.takeWhile (·.startsWith "-") |>.contains "-r"
  let names := args.dropWhile (·.startsWith "-")
  if names.isEmpty then complainAs "read" "arg count" 2
  else
    match names.find? fun name => !Script.isName name with
    | some name => failAs "read" (name ++ ": bad variable name")
    | none =>
      let (cs, whole) ← readLine raw 1000
      let f := Separators.of (← current)
      let cs := cs.dropWhile fun entry => !entry.2 && f.isBlank entry.1
      let values := shared f names.length cs
      (names.zip (values ++ names.map fun _ => "")).forM fun (name, value) => assign name value
      setStatus (if whole then 0 else 1)

/-! ## Leaving -/

def exit : Builtin := fun args => do
  match args with
  | [] => throw (.exit (← status))
  | text :: _ =>
    match natural? text with
    | some n => throw (.exit (n % 256))
    | none => failAs "exit" (illegalNumber text)

def return' : Builtin := fun args => do
  match args with
  | [] => throw (.back (← status))
  | text :: _ =>
    match natural? text with
    | some n => throw (.back n)
    | none => failAs "return" (illegalNumber text)

def leaving (name : String) (ending : Nat → Ending) : Builtin := fun args => do
  let text := args.headD "1"
  match natural? text with
  | none => failAs name (illegalNumber text)
  | some 0 => failAs name (illegalNumber text)
  | some n =>
    let loops := (← current).loops
    setStatus 0
    if loops == 0 then pure () else throw (ending (min n loops))

/-! ## Waiting and signals -/

def wait : Builtin := fun args => do
  let s ← current
  let finish (j : Job) : Run Unit := match j.finish with
    | some time => waitUntil time
    | none => throw .never
  match args with
  | [] =>
    s.jobs.forM finish
    setStatus 0
  | args => args.forM fun text =>
    match natural? text with
    | none => complainAs "wait" (illegalNumber text) 2
    | some n =>
      match s.jobs.find? fun j => ownNumber + j.number == n with
      | none => setStatus 127
      | some j => do
        finish j
        setStatus j.status

def signals : List (String × Nat) :=
  [("EXIT", 0), ("HUP", 1), ("INT", 2), ("QUIT", 3), ("ILL", 4), ("TRAP", 5), ("ABRT", 6), ("BUS", 7),
    ("FPE", 8), ("KILL", 9), ("USR1", 10), ("SEGV", 11), ("USR2", 12), ("PIPE", 13), ("ALRM", 14),
    ("TERM", 15), ("STKFLT", 16), ("CHLD", 17), ("CONT", 18), ("STOP", 19), ("TSTP", 20),
    ("TTIN", 21), ("TTOU", 22), ("URG", 23), ("XCPU", 24), ("XFSZ", 25), ("VTALRM", 26),
    ("PROF", 27), ("WINCH", 28), ("IO", 29), ("PWR", 30), ("SYS", 31)]

def signalText : Nat → String
  | 1 => "Hangup\n"
  | 3 => "Quit\n"
  | 4 => "Illegal instruction\n"
  | 6 => "Aborted\n"
  | 8 => "Floating point exception\n"
  | 9 => "Killed\n"
  | 10 => "User defined signal 1\n"
  | 11 => "Segmentation fault\n"
  | 12 => "User defined signal 2\n"
  | 14 => "Alarm clock\n"
  | 15 => "Terminated\n"
  | _ => ""

def signal? (text : String) : Option (String × Nat) :=
  let name := if text.startsWith "SIG" then String.ofList (text.toList.drop 3) else text
  match natural? text with
  | some n => signals.find? fun entry => entry.2 == n
  | none => signals.find? fun entry => entry.1 == name

def stopJob (number signal : Nat) : Run Unit := do
  let now := (← get).clock
  onShell fun s =>
    { s with jobs := s.jobs.map fun j =>
        if ownNumber + j.number == number && j.finish.all (now < ·) then
          { j with finish := some now, status := 128 + signal }
        else j }

/-- A signal to the shell itself ends it, unless a command is set for it or it asks for nothing. -/
def toItself (trap : String → Run Unit) (name : String) (n : Nat) : Run Unit := do
  let harmless := n == 0 || n == 17 || n == 18 || n == 23 || n == 28
  match (← current).traps.lookup name with
  | some command => if n == 9 then throw (.killed n) else if n != 0 then trap command
  | none => if !harmless then throw (.killed n)

def kill (trap : String → Run Unit) : Builtin := fun args => do
  match args with
  | "-l" :: text :: _ =>
    match signal? text with
    | some (name, n) => say 1 ((if (natural? text).isSome then name else toString n) ++ "\n")
    | none => complainAs "kill" ("invalid signal number or exit status: " ++ text) 2
  | args =>
    let (signal, targets) : Option (String × Nat) × List String := match args with
      | "-s" :: text :: rest => (signal? text, rest)
      | arg :: rest =>
        if arg.startsWith "-" && arg.length > 1 then
          (signal? (String.ofList (arg.toList.drop 1)), rest)
        else (some ("TERM", 15), args)
      | [] => (some ("TERM", 15), [])
    match signal with
    | none => complainAs "kill" "Illegal option" 2
    | some (name, n) =>
      setStatus 0
      targets.forM fun text => do
        let s ← current
        match natural? text with
        | none => complainAs "kill" (illegalNumber text) 2
        | some number =>
          if number == ownNumber then toItself trap name n
          else if s.jobs.any fun j => ownNumber + j.number == number then
            (if n == 0 then pure () else stopJob number n)
          else complainAs "kill" "No such process\n" 1

def trap : Builtin := fun args => do
  setStatus 0
  match args.filter (· != "--") with
  | [] =>
    (← current).traps.forM fun (name, command) =>
      say 1 ("trap -- " ++ single command ++ " " ++ name ++ "\n")
  | [name] =>
    match signal? name with
    | some (full, _) => onShell fun s => { s with traps := s.traps.filter fun t => t.1 != full }
    | none => pure ()
  | command :: names => names.forM fun text => do
    match signal? text with
    | none =>
      say 2 ("trap: " ++ text ++ ": bad trap\n")
      setStatus 1
    | some (name, _) =>
      onShell fun s =>
        let others := s.traps.filter fun t => t.1 != name
        { s with traps := if command == "-" then others else others ++ [(name, command)] }

/-! ## Names of commands -/

def names : List String :=
  Reader.specialCommands ++ Tool.builtins.map (·.1) ++
    ["alias", "bg", "cd", "chdir", "command", "fg", "getopts", "hash", "jobs", "kill", "local",
      "read", "type", "ulimit", "umask", "unalias", "wait"]

inductive Meaning where
  | keyword
  | function
  | special
  | builtin
  | program (path : String)
  | nothing

def meaning (m : Machine) (name : String) : Meaning :=
  if Reader.keywords.contains name then .keyword
  else if (m.shell.functions.lookup name).isSome then .function
  else if Reader.specialCommands.contains name then .special
  else if names.contains name then .builtin
  else
    match m.lookUp name with
    | .ok (path, .program _) => .program path
    | .ok (path, .file _ true) => .program path
    | _ => .nothing

def describe (name : String) : Meaning → String
  | .keyword => name ++ " is a shell keyword"
  | .function => name ++ " is a shell function"
  | .special => name ++ " is a special shell builtin"
  | .builtin => name ++ " is a shell builtin"
  | .program path => name ++ " is " ++ path
  | .nothing => name ++ ": not found"

def type' : Builtin := fun args => do
  setStatus 0
  args.forM fun name => do
    let found := meaning (← get) name
    say 1 (describe name found ++ "\n")
    if found matches .nothing then setStatus 127

def which : Builtin := fun args => do
  match args with
  | [] => setStatus 0
  | name :: _ =>
    match meaning (← get) name with
    | .nothing => setStatus 127
    | .program path =>
      say 1 (path ++ "\n")
      setStatus 0
    | _ =>
      say 1 (name ++ "\n")
      setStatus 0

def umask : Builtin := fun args => do
  match args with
  | [] => say 1 "0022\n"
  | _ => pure ()
  setStatus 0

def quiet : Builtin := fun _ => setStatus 0

def table : List (String × Builtin) :=
  [(":", quiet), ("alias", quiet), ("bg", fun _ => complainAs "bg" "No current job" 2),
    ("break", leaving "break" .leave), ("cd", cd), ("chdir", cd),
    ("continue", leaving "continue" .again), ("exit", exit), ("export", export'),
    ("fg", fun _ => complainAs "fg" "No current job" 2), ("getopts", getopts), ("hash", quiet),
    ("jobs", quiet), ("local", local'), ("read", read'), ("readonly", readonly),
    ("return", return'), ("set", set'), ("shift", shift), ("times", quiet), ("trap", trap),
    ("type", type'), ("ulimit", fun _ => say 1 "unlimited\n"), ("umask", umask),
    ("unalias", quiet), ("unset", unset), ("wait", wait)]

end Builtin
end BlockCanvas.Sandbox
