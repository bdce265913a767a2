import BlockCanvas.Host.Flow
import BlockCanvas.Text.Utf8

/-!
The files of a machine that is held in memory. A path is the list of names from the root, which is a
directory; every other node is stored with its path.
-/
namespace BlockCanvas.Host

abbrev Path := List String

inductive Trouble where
  | noEntry
  | badFormat
  | denied
  | notDirectory
  | isDirectory
  | exists
  | noSpace
  | nameTooLong
  | notEmpty
  | notText
  | nulByte
  | badDescriptor
  deriving DecidableEq, Repr

namespace Trouble

def reason : Trouble → String
  | .noEntry => "No such file or directory"
  | .badFormat => "Exec format error"
  | .denied => "Permission denied"
  | .notDirectory => "Not a directory"
  | .isDirectory => "Is a directory"
  | .exists => "File exists"
  | .noSpace => "No space left on device"
  | .nameTooLong => "File name too long"
  | .notEmpty => "Directory not empty"
  | .notText => "stream did not contain valid UTF-8"
  | .nulByte => "nul byte found in provided data"
  | .badDescriptor => "Bad file descriptor"

def number? : Trouble → Option Nat
  | .noEntry => some 2
  | .badFormat => some 8
  | .denied => some 13
  | .notDirectory => some 20
  | .isDirectory => some 21
  | .exists => some 17
  | .noSpace => some 28
  | .nameTooLong => some 36
  | .notEmpty => some 39
  | .notText => none
  | .nulByte => none
  | .badDescriptor => some 9

def text (t : Trouble) : String :=
  match t.number? with
  | some n => t.reason ++ " (os error " ++ toString n ++ ")"
  | none => t.reason

end Trouble

inductive Device where
  | empty
  | zeros
  | full
  deriving DecidableEq, Repr

inductive Node where
  | file (data : Bytes) (executable : Bool)
  | directory
  | device (d : Device)
  | program (name : String)
  deriving DecidableEq, Repr

structure Files where
  nodes : List (Path × Node) := []
  deriving DecidableEq, Repr

namespace Files

def node? (fs : Files) : Path → Option Node
  | [] => some .directory
  | path => fs.nodes.lookup path

def put (fs : Files) (path : Path) (node : Node) : Files :=
  ⟨(path, node) :: fs.nodes.filter fun entry => entry.1 != path⟩

def names (text : String) : List String :=
  text.splitOn "/"

def isAbsolute (text : String) : Bool :=
  text.startsWith "/"

def longestName : Nat := 255

def longestPath : Nat := 4095

def step (fs : Files) (here : Path) (name : String) : Except Trouble Path :=
  match fs.node? here with
  | none => .error .noEntry
  | some .directory =>
    if longestName < name.utf8ByteSize then .error .nameTooLong
    else .ok (if name == "" || name == "." then here
      else if name == ".." then here.dropLast
      else here ++ [name])
  | some _ => .error .notDirectory

/-- Where a written path leads; its last name need not exist. -/
def locate (fs : Files) (directory : Path) (text : String) : Except Trouble Path :=
  if text.isEmpty then .error .noEntry
  else if text.contains '\x00' then .error .nulByte
  else if longestPath < text.utf8ByteSize then .error .nameTooLong
  else (names text).foldlM fs.step (if isAbsolute text then [] else directory)

def find (fs : Files) (directory : Path) (text : String) : Except Trouble (Path × Node) := do
  let path ← fs.locate directory text
  match fs.node? path with
  | some node => return (path, node)
  | none => throw .noEntry

def read (fs : Files) (directory : Path) (text : String) : Except Trouble Flow := do
  match (← fs.find directory text).2 with
  | .file data _ => return .ofBytes data
  | .directory => throw .isDirectory
  | .device .empty => return {}
  | .device _ => return ⟨[], .cycle [0]⟩
  | .program _ => return {}

def bytes (fs : Files) (directory : Path) (text : String) : Except Trouble Bytes := do
  return (← fs.read directory text).data

def text (fs : Files) (directory : Path) (name : String) : Except Trouble String := do
  match Text.strict? (← fs.bytes directory name) with
  | some text => return text
  | none => throw .notText

def write (fs : Files) (directory : Path) (text : String) (data : Bytes) (after : Bool) :
    Except Trouble Files := do
  let path ← fs.locate directory text
  match fs.node? path with
  | none => return fs.put path (.file data false)
  | some (.file old executable) =>
    return fs.put path (.file (if after then old ++ data else data) executable)
  | some .directory => throw .isDirectory
  | some (.device .full) => if data.isEmpty then return fs else throw .noSpace
  | some (.device _) => return fs
  | some (.program _) => throw .denied

def ensureDirectory (fs : Files) (path : Path) : Except Trouble Files :=
  match fs.node? path with
  | none => .ok (fs.put path .directory)
  | some .directory => .ok fs
  | some _ => .error .notDirectory

def makeNames (fs : Files) (here : Path) : List String → Except Trouble Files
  | [] => .ok fs
  | name :: rest => do
    let next ← fs.step here name
    let fs ← fs.ensureDirectory next
    fs.makeNames next rest

def makeDirectories (fs : Files) (directory : Path) (text : String) : Except Trouble Files :=
  fs.makeNames (if isAbsolute text then [] else directory) (names text)

def entries (fs : Files) (path : Path) : List String :=
  (fs.nodes.filterMap fun entry =>
    if entry.1.dropLast == path && !entry.1.isEmpty then entry.1.getLast? else none).mergeSort

def remove (fs : Files) (path : Path) : Files :=
  ⟨fs.nodes.filter fun entry => !path.isPrefixOf entry.1⟩

def copied (fs : Files) (source target : Path) : Files :=
  let here := fs.nodes.filterMap fun entry =>
    if source.isPrefixOf entry.1 then some (target ++ entry.1.drop source.length, entry.2) else none
  ⟨here ++ (fs.nodes.filter fun entry => !here.any fun other => other.1 == entry.1)⟩

def isDirectory (fs : Files) (directory : Path) (text : String) : Bool :=
  match fs.find directory text with
  | .ok (_, .directory) => true
  | _ => false

def isFile (fs : Files) (directory : Path) (text : String) : Bool :=
  match fs.find directory text with
  | .ok (_, .file _ _) => true
  | .ok (_, .program _) => true
  | _ => false

def isExecutable (fs : Files) (directory : Path) (text : String) : Bool :=
  match fs.find directory text with
  | .ok (_, .file _ executable) => executable
  | .ok (_, .program _) => true
  | _ => false

def written (path : Path) : String :=
  "/" ++ "/".intercalate path

end Files
end BlockCanvas.Host
