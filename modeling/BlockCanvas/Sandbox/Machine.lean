import BlockCanvas.Sandbox.Pattern
import BlockCanvas.Sandbox.Script
import BlockCanvas.Sandbox.Tool.Table

/-!
The machine that scripts run on. What a process prints is a list of events, each with its time and its
outlet; an outlet that leads into a pipe is gathered and becomes a stream that another process reads.
Time passes only in commands that sleep or wait.
-/
namespace BlockCanvas.Sandbox
open Host

structure Event where
  time : Nat
  born : Option Nat
  outlet : Nat
  flow : Flow
  deriving DecidableEq, Repr

inductive Channel where
  | stream (n : Nat)
  | outlet (n : Nat)
  | file (path : Path)
  | device (d : Device)
  deriving DecidableEq, Repr

structure Feed where
  flow : Flow := {}
  arrivals : List (Nat × Nat) := []
  ready : Nat := 0
  taken : Nat := 0
  fromFile : Bool := false

def Feed.timeOf (f : Feed) (count : Nat) : Nat :=
  match f.arrivals.find? fun mark => f.taken + count ≤ mark.1 with
  | some mark => mark.2
  | none => if f.arrivals.isEmpty then 0 else f.ready

structure Variable where
  value : Option String := none
  exported : Bool := false
  fixed : Bool := false
  deriving DecidableEq, Repr

structure Job where
  number : Nat
  finish : Option Nat
  status : Nat

structure Shell where
  name : String := "sh"
  arguments : List String := []
  bindings : List (String × Variable) := []
  functions : List (String × Command) := []
  options : List Char := []
  descriptors : List (Nat × Channel) := []
  directory : Path := []
  status : Nat := 0
  line : Nat := 1
  traps : List (String × String) := []
  loops : Nat := 0
  calls : Nat := 0
  hidden : List (List (String × Option Variable)) := []
  /-- Whether the status of the command is asked for, so that a failure does not end the shell. -/
  tested : Bool := false
  substituted : Option Nat := none
  jobs : List Job := []
  optionOffset : Nat := 0
  context : Option String := none

structure Machine where
  files : Files
  clock : Nat := 0
  deadline : Nat := 0
  born : Option Nat := none
  streams : List (Nat × Feed) := []
  events : List Event := []
  fresh : Nat := 3
  shell : Shell := {}

inductive Ending where
  | exit (status : Nat)
  | leave (loops : Nat)
  | again (loops : Nat)
  | back (status : Nat)
  | killed (signal : Nat)
  | never
  deriving DecidableEq, Repr

abbrev Run := ExceptT Ending (StateM Machine)

namespace Machine

/-! ## The shell -/

def current : Run Shell := do
  return (← get).shell

def onShell (change : Shell → Shell) : Run Unit :=
  modify fun m => { m with shell := change m.shell }

def status : Run Nat := do
  return (← current).status

def setStatus (status : Nat) : Run Unit :=
  onShell fun s => { s with status }

def attempt {α : Type} (act : Run α) : Run (Except Ending α) :=
  liftM (m := StateM Machine) act.run

def resume : Except Ending Unit → Run Unit
  | .ok () => pure ()
  | .error ending => throw ending

def within {α : Type} (change : Shell → Shell) (mend : Shell → Shell → Shell) (act : Run α) :
    Run α := do
  let before ← current
  onShell change
  let result ← attempt act
  onShell (mend before)
  match result with
  | .ok value => return value
  | .error ending => throw ending

def newNumber : Run Nat := do
  let m ← get
  set { m with fresh := m.fresh + 1 }
  return m.fresh

def iterate {σ : Type} : Nat → σ → (σ → Run (Option σ)) → Run Unit
  | 0, _, _ => throw .never
  | n + 1, s, act => do
    match ← act s with
    | some s => iterate n s act
    | none => pure ()

/-! ## Reading and writing -/

def channel? (descriptor : Nat) : Run (Option Channel) := do
  return (← current).descriptors.lookup descriptor

def connect (descriptor : Nat) (channel : Option Channel) : Run Unit :=
  onShell fun s =>
    let others := s.descriptors.filter fun entry => entry.1 != descriptor
    { s with descriptors := match channel with
        | some c => (descriptor, c) :: others
        | none => others }

def newStream (feed : Feed) : Run Channel := do
  let n ← newNumber
  modify fun m => { m with streams := (n, feed) :: m.streams }
  return .stream n

def feedOf (descriptor : Nat) : Run Feed := do
  match ← channel? descriptor with
  | some (.stream n) => return ((← get).streams.lookup n).getD {}
  | _ => return {}

def setFeed (descriptor : Nat) (feed : Feed) : Run Unit := do
  match ← channel? descriptor with
  | some (.stream n) =>
    modify fun m =>
      { m with streams := (n, feed) :: m.streams.filter fun entry => entry.1 != n }
  | _ => pure ()

def waitUntil (time : Nat) : Run Unit :=
  modify fun m => { m with clock := max m.clock time }

def takeBytes (descriptor : Nat) (feed : Feed) (count : Nat) (rest : Flow) : Run Unit := do
  waitUntil (if rest.isEmpty then max feed.ready (feed.timeOf count) else feed.timeOf count)
  setFeed descriptor { feed with flow := rest, taken := feed.taken + count }

def takeOff (descriptor : Nat) (feed : Feed) (rest : Flow) : Run Unit := do
  if rest != feed.flow then
    takeBytes descriptor feed (feed.flow.data.length - rest.data.length) rest

def write (descriptor : Nat) (flow : Flow) : Run (Option Trouble) := do
  let failure? : Option Trouble ← match ← channel? descriptor with
    | some (.outlet n) => do
      if !flow.isEmpty then
        modify fun m => { m with events := ⟨m.clock, m.born, n, flow⟩ :: m.events }
      pure none
    | some (.file path) => do
      modify fun m => match m.files.node? path with
        | some (.file data executable) =>
          { m with files := m.files.put path (.file (data ++ flow.data) executable) }
        | _ => m
      pure none
    | some (.device .full) => pure (if flow.isEmpty then none else some .noSpace)
    | some (.device _) => pure none
    | _ => pure (if flow.isEmpty then none else some .badDescriptor)
  if failure?.isNone && !flow.ends then throw .never
  return failure?

def say (descriptor : Nat) (text : String) : Run Unit := do
  let _ ← write descriptor (.ofText text)

def gather (outlet : Nat) (ready : Nat) : Run Feed := do
  let m ← get
  let here := (m.events.reverse.filter (·.outlet == outlet)).mergeSort fun a b => a.time ≤ b.time
  set { m with events := m.events.filter (·.outlet != outlet) }
  let arrivals := (here.foldl (fun (found : List (Nat × Nat) × Nat) e =>
    let total := found.2 + e.flow.data.length
    ((total, e.time) :: found.1, total)) ([], 0)).1.reverse
  return { flow := .join (here.map Event.flow), arrivals, ready }

/-! ## Complaints -/

def heading (s : Shell) : String :=
  s.name ++ ": " ++ toString s.line ++ ": "

def complain (text : String) (status : Nat) : Run Unit := do
  say 2 (heading (← current) ++ text ++ "\n")
  setStatus status

def contextHeading (s : Shell) : String :=
  heading s ++ (match s.context with
    | some context => context ++ ": "
    | none => "")

def object (text : String) (status : Nat) : Run Unit := do
  say 2 (contextHeading (← current) ++ text ++ "\n")
  setStatus status

def fail {α : Type} (text : String) (status : Nat) : Run α := do
  object text status
  throw (.exit status)

/-! ## Variables -/

def bound? (s : Shell) (name : String) : Option String :=
  (s.bindings.lookup name).bind Variable.value

def setVariable (name : String) (v : Variable) : Run Unit :=
  onShell fun s =>
    { s with bindings := (name, v) :: s.bindings.filter fun entry => entry.1 != name }

def restoreVariable (name : String) (v : Option Variable) : Run Unit :=
  onShell fun s =>
    let others := s.bindings.filter fun entry => entry.1 != name
    { s with bindings := match v with
        | some v => (name, v) :: others
        | none => others }

/-- The most bytes that a variable holds; a machine that is asked for more does not come to an end. -/
def largestValue : Nat := Nat.pow 2 21

def assign (name value : String) : Run Unit := do
  if largestValue < value.utf8ByteSize then throw .never
  let s ← current
  let v := (s.bindings.lookup name).getD {}
  if v.fixed then fail (name ++ ": is read only") 2
  else setVariable name { v with value, exported := v.exported || s.options.contains 'a' }

def environment (s : Shell) : List (String × String) :=
  s.bindings.reverse.filterMap fun (name, v) =>
    match v.value with
    | some value => if v.exported then some (name, value) else none
    | none => none

def ownNumber : Nat := 1000

def parameter? (s : Shell) (name : String) : Option String :=
  match name with
  | "0" => some s.name
  | "#" => some (toString s.arguments.length)
  | "?" => some (toString s.status)
  | "-" => some (String.ofList s.options)
  | "$" => some (toString ownNumber)
  | "!" => (s.jobs.head?).map fun job => toString (ownNumber + job.number)
  | _ =>
    if name.toList.all Char.isDigit then s.arguments[Decimal.natOf name.toList - 1]?
    else bound? s name

/-! ## Programs -/

def passOn (feed : Feed) : Run (Option Trouble) := do
  let step (start : Nat) (mark : Nat × Nat) : Run Nat := do
    if start < mark.1 then
      waitUntil mark.2
      let _ ← write 1 (.ofBytes ((feed.flow.data.drop (start - feed.taken)).take (mark.1 - start)))
    return max start mark.1
  let _ ← feed.arrivals.foldlM step feed.taken
  takeOff 0 feed { feed.flow with data := [] }
  write 1 { feed.flow with data := [] }

def writeAll : List (Outlet × Flow) → Run (Option Trouble)
  | [] => return none
  | (.out, flow) :: rest => do
    let here ← write 1 flow
    return here.or (← writeAll rest)
  | (.err, flow) :: rest => do
    let _ ← write 2 flow
    writeAll rest

/-- Runs a program of the table: what it reads is taken off its input, what it prints is written. A
program that copies passes each piece on as it comes. -/
def perform (tool : Tool) (name : String) (isBuiltin : Bool) (args : List String) : Run Unit := do
  let m ← get
  let feed ← feedOf 0
  let called := if isBuiltin then heading m.shell ++ name else name
  let w := tool
    { name := called, files := m.files, directory := m.shell.directory, input := feed.flow
      fromFile := feed.fromFile, environment := environment m.shell } args
  set { m with files := w.files }
  let copies := feed.arrivals.length > 1 && w.prints == [(.out, feed.flow)] && w.input.isEmpty
  let broken ← if copies then passOn feed else do
    takeOff 0 feed w.input
    waitUntil ((← get).clock + w.delay)
    writeAll w.prints.reverse
  match broken with
  | none => setStatus w.status
  | some t =>
    let text := if isBuiltin then name ++ ": I/O error" else "write error: " ++ t.reason
    say 2 (called ++ ": " ++ text ++ "\n")
    setStatus 1

def shebang? (data : Bytes) : Option (List String) :=
  match data with
  | 35 :: 33 :: rest =>
    let isGap (c : Char) : Bool := c == ' ' || c == '\t'
    let trim (cs : List Char) : List Char := ((cs.dropWhile isGap).reverse.dropWhile isGap).reverse
    let line := trim (Text.lossy (rest.takeWhile (· != 10))).toList
    let name := line.takeWhile fun c => !isGap c
    let argument := trim (line.drop name.length)
    if name.isEmpty then none
    else some (String.ofList name ::
      if argument.isEmpty then [] else [String.ofList argument])
  | _ => none

def searchPath (s : Shell) : List String :=
  match bound? s "PATH" with
  | some path => (path.splitOn ":").map fun directory =>
    if directory.isEmpty then "" else if directory.endsWith "/" then directory else directory ++ "/"
  | none => ["/usr/local/bin/", "/bin/", "/usr/bin/"]

/-- The path and the node of a program. Of the places where it may be the first counts that has one
which can be run; if none has, a trouble other than that nothing is there is told first. -/
def lookUp (m : Machine) (name : String) : Except Trouble (String × Node) :=
  let find (path : String) : Except Trouble (String × Node) :=
    (m.files.find m.shell.directory path).map fun found => (path, found.2)
  if name.contains '/' || name.isEmpty then find name
  else
    let tries := (searchPath m.shell).map fun directory => find (directory ++ name)
    let runnable (node : Node) : Bool := match node with
      | .program _ => true
      | .file _ executable => executable
      | _ => false
    let good := tries.findSome? fun
      | .ok found => if runnable found.2 then some found else none
      | .error _ => none
    match good with
    | some found => .ok found
    | none =>
      let troubles := tries.filterMap fun
        | .ok _ => some .denied
        | .error t => if t == .noEntry || t == .notDirectory then none else some t
      .error (troubles.headD .noEntry)

end Machine
end BlockCanvas.Sandbox
