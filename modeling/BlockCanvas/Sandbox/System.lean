import BlockCanvas.Host.Interpreter
import BlockCanvas.Sandbox.Shell

/-!
A machine held in memory as a host: it has a shell and the common tools, and a program that is started on it
is run to the end, or to the time at which it is stopped.
-/
namespace BlockCanvas.Sandbox
open Host

def baseFiles : Files :=
  let programs := Tool.table.map (·.1) ++ Machine.shells ++ Machine.runners
  let provide (directory : Path) : List (Path × Node) :=
    (directory, Node.directory) ::
      programs.map fun name => (directory ++ [name], Node.program name)
  ⟨[(["tmp"], .directory), (["usr"], .directory), (["dev"], .directory),
      (["dev", "null"], .device .empty), (["dev", "zero"], .device .zeros),
      (["dev", "full"], .device .full)] ++
    provide ["bin"] ++ provide ["usr", "bin"]⟩

def scratch : Path :=
  ["tmp", "scratch"]

def startup : Nat := 1

def effort : Nat := 2000

def given : List (String × Variable) :=
  [("PATH", "/usr/local/sbin:/usr/local/bin:/usr/sbin:/usr/bin:/sbin:/bin"), ("HOME", "/root")].map
    fun (name, value) => (name, { value := some value, exported := true })

def prepared (directory : Path) (timeout : Nat) (files : Files) : Machine :=
  { files
    clock := startup
    deadline := timeout
    shell :=
      { directory
        bindings := given
        descriptors := [(0, .device .empty), (1, .outlet 1), (2, .outlet 2)] } }

/-- What a run printed on an outlet, by time. When the first process is stopped, others that it had
started by then go on. -/
def heard (timeout : Nat) (timedOut : Bool) (outlet : Nat) (events : List Event) : Flow :=
  let kept := events.filter fun e =>
    e.outlet == outlet && (!timedOut || e.born.getD e.time ≤ timeout)
  .join ((kept.mergeSort fun a b => a.time ≤ b.time).map Event.flow)

def execution (timeout : Nat) (elapsed : Option Nat) (after : Machine) : Execution :=
  let timedOut := elapsed.all (timeout < ·)
  let events := after.events.reverse
  { timedOut := .ok timedOut
    stdout := .ok (heard timeout timedOut 1 events)
    stderr := .ok (heard timeout timedOut 2 events)
    files := after.files }

def run (program : String) (args : List String) (directory : Path) (timeout : Nat) (files : Files) :
    Except Trouble Execution :=
  if (program :: args).any (·.contains '\x00') then .error .nulByte
  else
    let (result, after) := (Machine.program effort program args).run (prepared directory timeout files)
    match result with
    | .ok (some t) => .error t
    | .ok none => .ok (execution timeout (some after.clock) after)
    | .error ending => .ok (execution timeout (if ending == .never then none else some after.clock) after)

def system : System where
  scratch files := .ok (scratch, files.put scratch .directory)
  run := run

end BlockCanvas.Sandbox
