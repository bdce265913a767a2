import BlockCanvas.Sandbox.Expansion

/-!
Running scripts. A command changes the shell that it runs in; a process of its own works on a copy. The
bound that all functions share is on how deep commands nest: one that exceeds it is taken to run for
ever, and so is a loop that goes round too often.
-/
namespace BlockCanvas.Sandbox.Machine
open Host

def mostRounds : Nat := 100000

abbrev Evaluator := String → Run Unit

/-! ## Processes -/

/-- Runs a shell to its end: what ended it becomes its status, and the command that was set for its
end is run. -/
def finishing (evaluate : Evaluator) (act : Run Unit) : Run Unit := do
  match ← attempt act with
  | .error (.exit code) => setStatus code
  | .error (.back code) => setStatus code
  | .error .never => throw .never
  | .error (.killed signal) => throw (.killed signal)
  | _ => pure ()
  match (← current).traps.lookup "EXIT" with
  | none => pure ()
  | some command =>
    let code ← status
    onShell fun s => { s with traps := [] }
    match ← attempt (evaluate command) with
    | .error (.exit code) => setStatus code
    | .error .never => throw .never
    | _ => setStatus code

def forked (evaluate : Evaluator) (act : Run Unit) : Run Unit := do
  let outer := (← current)
  let born := (← get).born
  modify fun m => { m with
    born := some (born.getD m.clock)
    shell := { m.shell with traps := [], jobs := [] } }
  let result ← attempt (finishing evaluate act)
  let code ← status
  modify fun m => { m with born, shell := { outer with status := code } }
  match result with
  | .error (.killed signal) =>
    say 2 (Builtin.signalText signal)
    setStatus (128 + signal)
  | result => resume result

/-- The second command reads what the first prints. A first one without end is stopped when it writes
to a second one that is gone. -/
def pipe (evaluate : Evaluator) (left right : Run Unit) : Run Unit := do
  let start := (← get).clock
  let outlet ← newNumber
  let result ← attempt (forked evaluate do
    connect 1 (some (.outlet outlet))
    left)
  let finish := (← get).clock
  let feed ← gather outlet finish
  let endless := result matches .error .never
  let feed := if endless && feed.flow.ends then { feed with flow := ⟨feed.flow.data, .silent⟩ } else feed
  let stream ← newStream feed
  modify fun m => { m with clock := start }
  forked evaluate do
    connect 0 (some stream)
    right
  if endless then
    match stream with
    | .stream n =>
      let rest := (((← get).streams.lookup n).getD {}).flow
      if rest.data.isEmpty && rest.rest == .silent then throw .never
    | _ => pure ()
  else waitUntil finish

def delay : Nat := 1

def background (evaluate : Evaluator) (act : Run Unit) : Run Unit := do
  let start := (← get).clock
  let number ← newNumber
  let outer ← status
  let result ← attempt (forked evaluate do
    connect 0 (some (.device .empty))
    waitUntil (start + delay)
    act)
  let finish := (← get).clock
  let code ← status
  let job : Job :=
    { number, status := code, finish := if result matches .error .never then none else some finish }
  modify fun m => { m with clock := start }
  onShell fun s => { s with jobs := job :: s.jobs, status := outer }
  setStatus 0

def outputOf (evaluate : Evaluator) (act : Run Unit) : Run String := do
  let outlet ← newNumber
  let before ← status
  forked evaluate do
    connect 1 (some (.outlet outlet))
    setStatus before
    act
  let feed ← gather outlet 0
  let code ← status
  onShell fun s => { s with substituted := some code }
  let data := (feed.flow.data.reverse.dropWhile (· == 10)).reverse
  return Text.lossy (data.filter (· != 0))

/-! ## Conditions and loops -/

def testing (act : Run Unit) : Run Unit :=
  within (fun s => { s with tested := true }) (fun before s => { s with tested := before.tested }) act

def checkFailure : Run Unit := do
  let s ← current
  if s.status != 0 && s.options.contains 'e' && !s.tested then throw (.exit s.status)

def round (act : Run Unit) : Run Bool := do
  match ← attempt act with
  | .ok () => return true
  | .error (.leave n) => if n ≤ 1 then return false else throw (.leave (n - 1))
  | .error (.again n) => if n ≤ 1 then return true else throw (.again (n - 1))
  | .error ending => throw ending

def inLoop (act : Run Unit) : Run Unit :=
  within (fun s => { s with loops := s.loops + 1 }) (fun before s => { s with loops := before.loops })
    act

def loop (wanted : Bool) (condition body : Run Unit) : Run Unit :=
  inLoop (iterate mostRounds 0 fun last => do
    let stopped ← round (testing condition)
    if !stopped then
      setStatus 0
      return none
    else if ((← status) == 0) == wanted then
      if ← round body then return some (← status)
      else return none
    else
      setStatus last
      return none)

def each (name : String) (values : List String) (body : Run Unit) : Run Unit := do
  setStatus 0
  inLoop (iterate (values.length + 1) values fun
    | [] => return none
    | value :: rest => do
      assign name value
      if ← round body then return some rest else return none)

/-! ## Redirections -/

def redirecting (opened : Run Bool) (act : Run Unit) : Run Bool :=
  within id (fun before s => { s with descriptors := before.descriptors }) do
    if ← opened then
      act
      return true
    else return false

def deviceDescriptor? (name : String) : Option Nat :=
  match name with
  | "/dev/stdin" => some 0
  | "/dev/stdout" => some 1
  | "/dev/stderr" => some 2
  | _ =>
    if name.startsWith "/dev/fd/" then Builtin.natural? (String.ofList (name.toList.drop 8)) else none

def cannotOpen (name : String) (t : Trouble) : Run Bool := do
  let reason := if t == .noEntry then "No such file" else t.reason
  object ("cannot open " ++ name ++ ": " ++ reason) 2
  return false

def cannotCreate (name : String) (t : Trouble) : Run Bool := do
  let reason := if t == .noEntry then "Directory nonexistent" else t.reason
  object ("cannot create " ++ name ++ ": " ++ reason) 2
  return false

def duplicate (descriptor source : Nat) : Run Bool := do
  match ← channel? source with
  | some channel =>
    connect descriptor (some channel)
    return true
  | none =>
    object (toString source ++ ": Bad file descriptor") 2
    return false

def openForReading (descriptor : Nat) (name : String) : Run Bool := do
  let m ← get
  match m.files.read m.shell.directory name with
  | .ok flow =>
    let fromFile := m.files.isFile m.shell.directory name
    connect descriptor (some (← newStream { flow, fromFile }))
    return true
  | .error .isDirectory =>
    connect descriptor (some (.device .empty))
    return true
  | .error t => cannotOpen name t

def openForWriting (descriptor : Nat) (name : String) (after guarded : Bool) : Run Bool := do
  let m ← get
  let here := m.shell.directory
  if guarded && !after && m.files.isFile here name then cannotCreate name .exists
  else
    match m.files.write here name [] after with
    | .error t => cannotCreate name t
    | .ok files =>
      set { m with files }
      match files.find here name with
      | .ok (_, .device d) => connect descriptor (some (.device d))
      | .ok (path, _) => connect descriptor (some (.file path))
      | .error _ => pure ()
      return true

def openFile (descriptor : Nat) (mode : FileMode) (name : String) : Run Bool := do
  match deviceDescriptor? name, mode with
  | some source, _ => duplicate descriptor source
  | none, .read => openForReading descriptor name
  | none, .write => openForWriting descriptor name false ((← current).options.contains 'C')
  | none, .extend => openForWriting descriptor name true false
  | none, .update => do
    let m ← get
    match m.files.find m.shell.directory name with
    | .ok _ => openForReading descriptor name
    | .error _ =>
      if ← openForWriting descriptor name true false then openForReading descriptor name
      else return false

def openCopy (descriptor : Nat) (text : String) : Run Bool := do
  if text == "-" then
    connect descriptor none
    return true
  else
    match Builtin.natural? text with
    | some source => duplicate descriptor source
    | none => fail "Syntax error: Bad fd number" 2

/-! ## Words -/

def homed (s : Shell) (w : Word) : Word :=
  match w with
  | .text ('~' :: cs) false :: rest =>
    let user := String.ofList (cs.takeWhile (· != '/'))
    let after := cs.dropWhile (· != '/')
    let home? : Option String :=
      if !rest.isEmpty && after.isEmpty then none
      else if user.isEmpty then bound? s "HOME"
      else if user == "root" then some "/root"
      else none
    match home? with
    | some home => .text home.toList true :: .text after false :: rest
    | none => w
  | w => w

def joint (s : Shell) : String :=
  match (bound? s "IFS").getD " " with
  | "" => ""
  | text => String.ofList (text.toList.take 1)

def wholeValue? (s : Shell) (name : String) : Option String :=
  if name == "@" || name == "*" then
    if s.arguments.isEmpty then none else some ((joint s).intercalate s.arguments)
  else parameter? s name

def plainCells (s : Shell) (name : String) (quoted : Bool) : List Cell :=
  if name == "@" || (name == "*" && !quoted) then Cell.ofArguments s.arguments quoted
  else Cell.ofText ((wholeValue? s name).getD "") quoted

def checkSet (s : Shell) (name : String) : Run Unit := do
  if s.options.contains 'u' && name != "@" && name != "*" && (parameter? s name).isNone then
    fail (name ++ ": parameter not set") 2

def calculated (text : String) : Run String := do
  let s ← current
  match Arithmetic.value (bound? s) text with
  | .ok (n, settings) =>
    settings.forM fun (name, value) => assign name (toString value)
    return toString n
  | .error fault => fail (fault.text text) 2

/-! ## Commands -/

def trace (settings : List (String × String)) (words : List String) : Run Unit := do
  if (← current).options.contains 'x' then
    let shown := settings.map (fun (name, value) => name ++ "=" ++ value) ++ words
    say 2 ("+ " ++ " ".intercalate shown ++ "\n")

def exporting (settings : List (String × String)) : Run Unit :=
  settings.forM fun (name, value) => do
    assign name value
    let v := ((← current).bindings.lookup name).getD {}
    setVariable name { v with exported := true }

def fromContext (context : String) (act : Run Unit) : Run Unit :=
  within (fun s => { s with context := some context })
    (fun before s => { s with context := before.context }) act

def temporarily (settings : List (String × String)) (act : Run Unit) : Run Unit := do
  let s ← current
  let before := settings.map fun (name, _) => (name, s.bindings.lookup name)
  let result ← attempt (exporting settings *> act)
  before.reverse.forM fun (name, v) => restoreVariable name v
  resume result

def leaveFrame (before after : Shell) : Shell :=
  let frame := after.hidden.headD []
  let bindings := frame.foldl (fun bindings (name, v) =>
    let others := bindings.filter fun entry => entry.1 != name
    match v with
    | some v => (name, v) :: others
    | none => others) after.bindings
  { after with bindings, hidden := before.hidden, arguments := before.arguments }

def calling (arguments : List String) (body : Run Unit) : Run Unit :=
  within (fun s => { s with arguments, hidden := [] :: s.hidden }) leaveFrame do
    match ← attempt body with
    | .error (.back code) => setStatus code
    | result => resume result

def unfound (name : String) (t : Trouble) : Run Unit :=
  if t == .noEntry || t == .notDirectory then object (name ++ ": not found") 127
  else object (name ++ ": " ++ t.reason) 126

def commandFile (name : String) : Run (String × String) := do
  let m ← get
  let here := m.shell.directory
  let place := if name.contains '/' then some name
    else (searchPath m.shell).findSome? fun directory =>
      if m.files.isFile here (directory ++ name) then some (directory ++ name) else none
  match place with
  | none => Builtin.failAs "." (name ++ ": not found")
  | some path =>
    match m.files.read here path with
    | .ok flow => return (path, Text.lossy flow.data)
    | .error _ => Builtin.failAs "." ("cannot open " ++ path ++ ": No such file")

/-! ## Programs that run others -/

def shells : List String :=
  ["sh", "dash", "bash"]

def runners : List String :=
  ["env", "nice", "setsid", "timeout", "xargs"]

abbrev Starter := String → List String → Run (Option Trouble)

def misusedBy (name text : String) (status : Nat) : Run Unit := do
  say 2 (name ++ ": " ++ text ++ "\nTry '" ++ name ++ " --help' for more information.\n")
  setStatus status

def startFor (start : Starter) (name program : String) (args : List String) : Run Unit := do
  match ← start program args with
  | none => pure ()
  | some t =>
    say 2 (name ++ ": " ++ Tool.quoted program ++ ": " ++ t.reason ++ "\n")
    setStatus (if t == .noEntry then 127 else 126)

def env (start : Starter) (name : String) (args : List String) : Run Unit := do
  let known : Tool.Known :=
    { plain := "i0v", valued := "uC", strict := true
      long := [("ignore-environment", 'i'), ("unset", 'u'), ("null", '0'), ("chdir", 'C')] }
  match Tool.options known (args.length + 1) args with
  | .error text => misusedBy name text 125
  | .ok (found, operands) =>
    let operands := if operands.head? == some "-" then operands.tail else operands
    let isSetting (arg : String) : Bool := arg.contains '='
    onShell fun s =>
      { s with bindings := (s.bindings.map fun (name, v) =>
          (name, if Tool.has found 'i' then { v with exported := false } else v)).filter fun entry =>
            !found.any fun option => option.1 == 'u' && option.2 == entry.1 }
    exporting ((operands.takeWhile isSetting).map fun arg =>
      let (name, value) := Builtin.setting arg
      (name, value.getD ""))
    match operands.dropWhile isSetting with
    | [] =>
      (environment (← current)).forM fun (name, value) =>
        say 1 (name ++ "=" ++ value ++ (if Tool.has found '0' then "\x00" else "\n"))
      setStatus 0
    | program :: args => startFor start name program args

def timeout (start : Starter) (name : String) (args : List String) : Run Unit := do
  let known : Tool.Known :=
    { plain := "v", valued := "ks", strict := true
      long := [("signal", 's'), ("kill-after", 'k'), ("verbose", 'v'), ("preserve-status", 'v'),
        ("foreground", 'v')] }
  match Tool.options known (args.length + 1) args with
  | .error text => misusedBy name text 125
  | .ok (_, duration :: program :: args) =>
    match Tool.milliseconds? duration with
    | none => misusedBy name ("invalid time interval " ++ Tool.quoted duration) 125
    | some limit? =>
      let m ← get
      let result ← attempt (startFor start name program args)
      let after ← get
      let limit := limit?.map (m.clock + ·)
      let late := result matches .error .never || limit.any (· < after.clock)
      match limit with
      | some time =>
        if late && time != m.clock then
          set { after with
            clock := time
            events := after.events.filter fun e => e.time ≤ time || m.events.contains e }
          setStatus 124
        else resume result
      | none => resume result
  | .ok _ =>
    say 2 ("Try '" ++ name ++ " --help' for more information.\n")
    setStatus 125

/-- The arguments that a text holds: parts between blanks, with quotes and backslashes taken off. -/
def argumentsIn : Nat → Option (List Char) → List Char → List String
  | 0, _, _ => []
  | _ + 1, current, [] => (current.map fun cs => String.ofList cs.reverse).toList
  | n + 1, current, c :: cs =>
    let add (more : List Char) : Option (List Char) := some (more.reverse ++ current.getD [])
    if c == '\'' || c == '"' then
      let inside := cs.takeWhile (· != c)
      argumentsIn n (add inside) (cs.drop (inside.length + 1))
    else if c == '\\' then argumentsIn n (add (cs.take 1)) (cs.drop 1)
    else if c == ' ' || c == '\t' || c == '\n' then
      match current with
      | some found => String.ofList found.reverse :: argumentsIn n none cs
      | none => argumentsIn n none cs
    else argumentsIn n (add [c]) cs

def groups {α : Type} (size : Nat) : Nat → List α → List (List α)
  | 0, _ => []
  | n + 1, l => if l.isEmpty then [] else l.take size :: groups size n (l.drop size)

def xargs (evaluate : Evaluator) (start : Starter) (name : String) (args : List String) :
    Run Unit := do
  let known : Tool.Known :=
    { plain := "0rtx", valued := "nILdPs", strict := true
      long := [("null", '0'), ("no-run-if-empty", 'r'), ("max-args", 'n'), ("delimiter", 'd')] }
  match Tool.options known (args.length + 1) args with
  | .error text => misusedBy name text 1
  | .ok (found, operands) =>
    let feed ← feedOf 0
    match feed.flow.all? with
    | none => throw .never
    | some data =>
      takeOff 0 feed {}
      let text := Text.lossy data
      let lines := text.splitOn "\n" |>.filter (· != "")
      let values : List String :=
        if Tool.has found '0' then (text.splitOn "\x00").filter (· != "")
        else match Tool.value? found 'd' with
          | some mark =>
            let mark := Text.lossy (({} : Escapes).bytes mark).1
            let parts := text.splitOn mark
            if parts.getLast? == some "" then parts.dropLast else parts
          | none =>
            if Tool.has found 'I' then lines
            else if Tool.has found 'L' then lines
            else argumentsIn (text.length + 1) none text.toList
      let program := operands.headD "echo"
      let fixed := operands.tail
      let size := match (Tool.value? found 'n').bind Builtin.natural? with
        | some n => n
        | none => if Tool.has found 'L' then 1 else values.length
      let calls : List (List String) := match Tool.value? found 'I' with
        | some mark => values.map fun value => fixed.map fun arg => arg.replace mark value
        | none =>
          if values.isEmpty then (if Tool.has found 'r' then [] else [fixed])
          else (groups size (values.length + 1) values).map (fixed ++ ·)
      let code ← calls.foldlM (fun code args => do
        if Tool.has found 't' then say 2 (" ".intercalate (program :: args) ++ "\n")
        forked evaluate do
          match ← start program args with
          | none => pure ()
          | some t =>
            say 2 (name ++ ": " ++ program ++ ": " ++ t.reason ++ "\n")
            setStatus (if t == .noEntry then 127 else 126)
        let here ← status
        return if here == 0 then code else if here < 126 then 123 else here) 0
      setStatus code

def runner (evaluate : Evaluator) (start : Starter) (which name : String) (args : List String) :
    Run Unit :=
  match which with
  | "env" => env start name args
  | "timeout" => timeout start name args
  | "xargs" => xargs evaluate start name args
  | _ =>
    let args := match args with
      | "-n" :: _ :: rest => rest
      | args => args.dropWhile (·.startsWith "-")
    match args with
    | program :: args => startFor start name program args
    | [] => setStatus 0

/-! ## Shells -/

inductive Invocation where
  | text (script : String) (name : String) (arguments : List String)
  | file (name : String) (arguments : List String)
  | input (arguments : List String)
  | wrong (text : String)

def invocation (called : String) (args : List String) : Invocation × List Char :=
  match Builtin.readOptions ['c', 'l'] (args.length + 1) [] args with
  | .error text => (.wrong text, [])
  | .ok (options, rest, _) =>
    let kept := options.filter fun letter => letter != 'c' && letter != 'l'
    if options.contains 'c' then
      match rest with
      | [] => (.wrong "-c requires an argument", kept)
      | text :: rest => (.text text (rest.headD called) rest.tail, kept)
    else if options.contains 's' then (.input rest, kept)
    else
      match rest with
      | [] => (.input [], kept ++ ['s'])
      | name :: rest => (.file name rest, kept)

def renewed (s : Shell) (name : String) (arguments : List String) (options : List Char) : Shell :=
  let given := s.bindings.filterMap fun (name, v) =>
    if v.exported && v.value.isSome then some (name, { v with fixed := false }) else none
  let own : List (String × Variable) :=
    [("OPTIND", { value := some "1" }), ("PS1", { value := some "# " }),
      ("PS2", { value := some "> " }), ("PS4", { value := some "+ " }),
      ("IFS", { value := some " \t\n" }), ("PWD", { value := some (Files.written s.directory), exported := true })]
  { name, arguments, options
    bindings := given ++ own.filter fun entry => (given.lookup entry.1).isNone
    descriptors := s.descriptors
    directory := s.directory }

mutual
def run : Nat → Command → Run Unit
  | 0, _ => throw .never
  | n + 1, command => do
    let m ← get
    if m.born.isNone && m.deadline < m.clock then throw .never
    if m.shell.options.contains 'n' then return
    match command with
    | .nothing => pure ()
    | .simple line words redirects => do
      simple n line words redirects
      checkFailure
    | .redirected inner redirects => do
      if !(← redirecting (opened n redirects) (run n inner)) then checkFailure
    | .sequence first second => do
      run n first
      run n second
    | .both first second => do
      testing (run n first)
      if (← status) == 0 then run n second
    | .either first second => do
      testing (run n first)
      if (← status) != 0 then run n second
    | .negated inner => do
      testing (run n inner)
      setStatus (if (← status) == 0 then 1 else 0)
    | .background inner => background (evaluate n) (run n inner)
    | .subshell inner => do
      forked (evaluate n) (run n inner)
      checkFailure
    | .pipe left right => do
      pipe (evaluate n) (run n left) (run n right)
      checkFailure
    | .branch condition yes no => do
      testing (run n condition)
      if (← status) == 0 then run n yes
      else
        setStatus 0
        run n no
    | .loop wanted condition body => loop wanted (run n condition) (run n body)
    | .each name words body => do
      each name (← fields n words) (run n body)
    | .choice word clauses => do
      let text ← value n word
      setStatus 0
      choose n text.toList clauses
    | .function name body => do
      onShell fun s => { s with
        functions := (name, body) :: s.functions.filter fun entry => entry.1 != name }
      setStatus 0
def choose : Nat → List Char → List (List Word × Command) → Run Unit
  | 0, _, _ => throw .never
  | _ + 1, _, [] => pure ()
  | n + 1, text, (patterns, body) :: rest => do
    let fits ← patterns.anyM fun word => do
      return (Pattern.read (Cell.chars (← cells n false word))).fits text
    if fits then run n body else choose n text rest
def opened : Nat → List Redirect → Run Bool
  | 0, _ => throw .never
  | _ + 1, [] => return true
  | n + 1, redirect :: rest => do
    let good ← match redirect with
      | .file descriptor mode target => do
        openFile descriptor mode (← value n target)
      | .copy descriptor source => do
        openCopy descriptor (← value n source)
      | .document descriptor body => do
        let text ← value n body
        connect descriptor (some (← newStream { flow := .ofText text }))
        pure true
    if good then opened n rest else return false
def value : Nat → Word → Run String
  | 0, _ => throw .never
  | n + 1, w => do
    return Cell.text (← cells n false w)
def cells : Nat → Bool → Word → Run (List Cell)
  | 0, _, _ => throw .never
  | n + 1, nested, w => do
    return (← (homed (← current) w).mapM (pieceCells n nested)).flatten
def pieceCells : Nat → Bool → Piece → Run (List Cell)
  | 0, _, _ => throw .never
  | n + 1, nested, piece => do
    match piece with
    | .text cs quoted =>
      return if cs.isEmpty && quoted then [.kept]
        else cs.map fun c => .char c quoted (nested && !quoted)
    | .output command quoted =>
      return Cell.ofText (← outputOf (evaluate n) (run n command)) quoted
    | .sum expression quoted =>
      return Cell.ofText (← calculated (← value n expression)) quoted
    | .parameter name quoted adjustment word => do
      let s ← current
      let whole? := wholeValue? s name
      let present (filled : Bool) : Bool := whole?.any fun text => !filled || text != ""
      let inner : Run (List Cell) := do
        let inside ← cells n true word
        return if quoted && inside.isEmpty then [.kept] else inside
      let here := plainCells s name quoted
      match adjustment with
      | .plain =>
        checkSet s name
        return here
      | .length =>
        checkSet s name
        let size := if name == "@" || name == "*" then s.arguments.length
          else (whole?.getD "").utf8ByteSize
        return Cell.ofText (toString size) quoted
      | .orElse filled => if present filled then return here else inner
      | .instead filled =>
        if present filled then inner else return if quoted then [.kept] else []
      | .orAssign filled =>
        if present filled then return here
        else if Script.isName name then
          let text := Cell.text (← inner)
          assign name text
          return Cell.ofText text quoted
        else fail (name ++ ": bad variable name") 2
      | .orFail filled =>
        if present filled then return here
        else
          let text := Cell.text (← inner)
          let standard := "parameter not set" ++ (if filled then " or null" else "")
          fail (name ++ ": " ++ (if text.isEmpty then standard else text)) 2
      | .withoutStart longest =>
        checkSet s name
        let p := Pattern.read (Cell.chars (← cells n false word))
        return Cell.ofText (String.ofList (p.withoutStart longest (whole?.getD "").toList)) quoted
      | .withoutEnd longest =>
        checkSet s name
        let p := Pattern.read (Cell.chars (← cells n false word))
        return Cell.ofText (String.ofList (p.withoutEnd longest (whole?.getD "").toList)) quoted
      | .bad => fail "Bad substitution" 2
def fields : Nat → List Word → Run (List String)
  | 0, _ => throw .never
  | n + 1, words => do
    let found ← words.mapM fun w => do
      let expanded ← cells n false w
      let m ← get
      let parts := fieldsOf (.of m.shell) expanded
      return if m.shell.options.contains 'f' then parts.map Field.text
        else parts.flatMap (Field.expanded m.files m.shell.directory)
    return found.flatten
def simple : Nat → Nat → List Word → List Redirect → Run Unit
  | 0, _, _, _ => throw .never
  | n + 1, line, words, redirects => do
    onShell fun s => { s with line, substituted := none }
    let (settings, rest) := Script.assignments words
    let args ← fields n rest
    let values ← settings.mapM fun (name, word) => do
      let text ← value n word
      if args.isEmpty then
        trace [(name, text)] []
        assign name text
      return (name, text)
    match args with
    | [] =>
      if ← redirecting (opened n redirects) (pure ()) then
        setStatus ((← current).substituted.getD 0)
    | "exec" :: args =>
      trace values ("exec" :: args)
      values.forM fun (name, text) => assign name text
      if !(← opened n redirects) then throw (.exit 2)
      else replace n args
    | name :: args =>
      trace values (name :: args)
      let function? := (← current).functions.lookup name
      let special := Reader.specialCommands.contains name
      let act : Run Unit := match function? with
        | some body => temporarily values (calling args (run n body))
        | none =>
          if special then do
            values.forM fun (name, text) => assign name text
            command n name args
          else if Builtin.names.contains name then temporarily values (command n name args)
          else forked (evaluate n) (exporting values *> external n name args)
      if !(← redirecting (opened n redirects) act) && special && function?.isNone then
        throw (.exit 2)
def command : Nat → String → List String → Run Unit
  | 0, _, _ => throw .never
  | n + 1, name, args => do
    match name with
    | "eval" =>
      setStatus 0
      fromContext "eval" (evaluate n (" ".intercalate args))
    | "." =>
      match args with
      | [] => setStatus 0
      | file :: _ =>
        let (path, text) ← commandFile file
        setStatus 0
        match ← attempt (fromContext path (evaluate n text)) with
        | .error (.back code) => setStatus code
        | result => resume result
    | "command" =>
      match args.dropWhile (· == "-p") with
      | "-v" :: args => Builtin.which args
      | "-V" :: args => Builtin.type' args
      | "--" :: name :: args => other n name args
      | name :: args => other n name args
      | [] => setStatus 0
    | "kill" => Builtin.kill (evaluate n) args
    | _ =>
      match Builtin.table.lookup name, Tool.builtins.lookup name with
      | some builtin, _ => builtin args
      | none, some tool => perform tool name true args
      | none, none => setStatus 0
def other : Nat → String → List String → Run Unit
  | 0, _, _ => throw .never
  | n + 1, name, args => do
    if !Builtin.names.contains name then forked (evaluate n) (external n name args)
    else if ["eval", "exit", "return", "break", "continue"].contains name then command n name args
    else
      match ← attempt (command n name args) with
      | .error (.exit code) => setStatus code
      | result => resume result
def replace : Nat → List String → Run Unit
  | 0, _ => throw .never
  | _ + 1, [] => setStatus 0
  | n + 1, name :: args => do
    match ← program n name args with
    | none =>
      onShell fun s => { s with traps := [] }
      throw (.exit (← status))
    | some t =>
      unfound ("exec: " ++ name) t
      throw (.exit (← status))
def external : Nat → String → List String → Run Unit
  | 0, _, _ => throw .never
  | n + 1, name, args => do
    match ← program n name args with
    | none => pure ()
    | some .badFormat => script n name [name]
    | some t => unfound name t
def evaluate : Nat → String → Run Unit
  | 0, _ => throw .never
  | n + 1, text => do
    let start : Input := { text := text.toList }
    iterate (text.length + 2) start fun input => do
      match input.next with
      | .ok (none, _) => return none
      | .ok (some command, rest) =>
        run n command
        return some rest
      | .error e =>
        onShell fun s => { s with line := e.line }
        fail ("Syntax error: " ++ e.text) 2
def program : Nat → String → List String → Run (Option Trouble)
  | 0, _, _ => throw .never
  | n + 1, name, args => do
    let m ← get
    match m.lookUp name with
    | .error t => return some t
    | .ok (_, .program known) =>
      if shells.contains known then script n name args
      else if runners.contains known then
        runner (evaluate n) (fun name args => program n name args) known name args
      else
        match Tool.table.lookup known with
        | some tool => perform tool name false args
        | none => setStatus 0
      return none
    | .ok (path, .file data true) =>
      match shebang? data with
      | some (interpreter :: more) =>
        let place := if interpreter.contains '/' then interpreter else "./" ++ interpreter
        program n place (more ++ path :: args)
      | _ => return some .badFormat
    | .ok _ => return some .denied
def script : Nat → String → List String → Run Unit
  | 0, _, _ => throw .never
  | n + 1, called, args => do
    let (given, options) := invocation called args
    let start (name : String) (arguments : List String) (text : String) : Run Unit := do
      onShell fun s => renewed s name arguments options
      finishing (evaluate n) (evaluate n text)
    match given with
    | .text text name arguments => start name arguments text
    | .file name arguments =>
      let m ← get
      match m.files.read m.shell.directory name with
      | .ok flow => start name arguments (Text.lossy flow.data)
      | .error _ =>
        say 2 (called ++ ": 0: cannot open " ++ name ++ ": No such file\n")
        setStatus 2
    | .input arguments =>
      let feed ← feedOf 0
      match feed.flow.all? with
      | some data =>
        takeOff 0 feed {}
        waitUntil feed.ready
        start called arguments (Text.lossy data)
      | none => throw .never
    | .wrong text =>
      say 2 (called ++ ": 0: " ++ text ++ "\n")
      setStatus 2
end

end BlockCanvas.Sandbox.Machine
