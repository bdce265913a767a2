import BlockCanvas.CommandLine.Job
import BlockCanvas.Sandbox.System

/-!
The command line over the files of the host. The files that the options name are read into the
machine, the job is done there, and what it wrote is written back.
-/
namespace BlockCanvas.Host

open BlockCanvas.CommandLine

def named (o : Options) : List String :=
  [o.input] ++ o.emit.toList ++ o.requirements.toList ++ o.bundle.toList ++ o.reportJson.toList ++
    (if o.interpreter.contains '/' then [o.interpreter] else [])

def leading (path : Path) : List Path :=
  (List.range path.length).map fun n => path.take (n + 1)

def fetch (o : Options) (fs : Files) (path : Path) : IO Files := do
  let written := Files.written path
  if (fs.node? path).isSome then return fs
  else if ← ((← IO.currentDir) / written).isDir then return fs.put path .directory
  else
    try
      let data ← IO.FS.readBinFile written
      return fs.put path (.file data.toList (o.interpreter.endsWith (path.getLast?.getD "")))
    catch _ => return fs

def fetchAll (o : Options) (directory : Path) : IO Files := do
  let paths := (named o).flatMap fun name =>
    let names := (Files.names name).filter fun part => part != "" && part != "."
    leading (if Files.isAbsolute name then names else directory ++ names)
  (leading directory ++ paths).foldlM (fetch o) Sandbox.baseFiles

/-- Writes what differs from before; the scratch directory is not the host's. -/
def writeBack (before after : Files) : IO Unit := do
  for (path, node) in after.nodes.reverse do
    if before.node? path != some node && !Sandbox.scratch.isPrefixOf path then
      match node with
      | .directory => IO.FS.createDirAll (Files.written path)
      | .file data _ => IO.FS.writeBinFile (Files.written path) ⟨data.toArray⟩
      | _ => pure ()

def runJob (o : Options) : IO UInt32 := do
  let directory := (Files.names (← IO.currentDir).toString).filter (· != "")
  let files ← fetchAll o directory
  let (failure, desk) := perform .standard Sandbox.system o files directory
  writeBack files desk.files
  (← IO.getStdout).putStr desk.stdout
  (← IO.getStderr).putStr desk.stderr
  match failure with
  | none => return 0
  | some f =>
    (← IO.getStderr).putStr ("Error: " ++ f.message ++ "\n")
    return 1

end BlockCanvas.Host

def main (args : List String) : IO UInt32 := do
  match BlockCanvas.CommandLine.Options.ofArguments args with
  | .ok o => BlockCanvas.Host.runJob o
  | .error .displayHelp =>
    (← IO.getStdout).putStr BlockCanvas.CommandLine.usage
    return 0
  | .error e =>
    (← IO.getStderr).putStr (e.message ++ "\n")
    return 2
