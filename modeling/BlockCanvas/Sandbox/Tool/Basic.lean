import BlockCanvas.Sandbox.Escapes
import BlockCanvas.Host.Files

/-!
The programs that the machine provides: what a program sees, what it does, and how it reads its
options. A program sees its arguments, its input, the files and its working directory; what it does to
the world is what it writes and how long it takes.
-/
namespace BlockCanvas.Sandbox
open Host

inductive Outlet where
  | out
  | err
  deriving DecidableEq, Repr

structure Setting where
  name : String
  files : Files
  directory : Path
  input : Flow
  fromFile : Bool := false
  environment : List (String × String) := []

/-- What a program did. `input` is what it left of its input, `delay` the time it slept. -/
structure Work where
  prints : List (Outlet × Flow) := []
  status : Nat := 0
  delay : Nat := 0
  input : Flow
  files : Files

abbrev Tool := Setting → List String → Work

namespace Setting

def idle (s : Setting) : Work :=
  { input := s.input, files := s.files }

end Setting

namespace Work

def print (w : Work) (flow : Flow) : Work :=
  { w with prints := (.out, flow) :: w.prints }

def printBytes (w : Work) (data : Bytes) : Work :=
  w.print (.ofBytes data)

def printText (w : Work) (text : String) : Work :=
  w.print (.ofText text)

def printError (w : Work) (text : String) : Work :=
  { w with prints := (.err, .ofText text) :: w.prints }

def complain (w : Work) (name text : String) (status : Nat) : Work :=
  { w.printError (name ++ ": " ++ text ++ "\n") with status }

def out (w : Work) : Flow :=
  .join ((w.prints.reverse.filter (·.1 == .out)).map (·.2))

def mapOut (w : Work) (change : Flow → Flow) : Work :=
  { w with prints := (.out, change w.out) :: w.prints.filter (·.1 == .err) }

end Work

namespace Tool

def quoted (text : String) : String :=
  "'" ++ text ++ "'"

def misused (s : Setting) (text : String) (status : Nat) : Work :=
  (s.idle.complain s.name text status).printError
    ("Try '" ++ s.name ++ " --help' for more information.\n")

/-! ## Options -/

def invalid (c : Char) : String :=
  "invalid option -- " ++ quoted (String.singleton c)

structure Known where
  plain : String := ""
  valued : String := ""
  long : List (String × Char) := []
  strict : Bool := false

abbrev Options := List (Char × String)

def cluster (k : Known) : List Char → Except String (Options × Option Char)
  | [] => .ok ([], none)
  | c :: cs =>
    if k.valued.contains c then
      .ok (if cs.isEmpty then ([], some c) else ([(c, String.ofList cs)], none))
    else if k.plain.contains c then do
      let (found, wanting) ← cluster k cs
      return ((c, "") :: found, wanting)
    else .error (invalid c)

def meant (k : Known) (name : String) : List (String × Char) :=
  match k.long.filter fun entry => entry.1 == name with
  | [] => k.long.filter fun entry => entry.1.startsWith name
  | exact => exact

def longOption (k : Known) (arg : String) (rest : List String) :
    Except String ((Char × String) × List String) :=
  let cs := arg.toList.drop 2
  let name := cs.takeWhile (· != '=')
  let given? : Option String := match cs.drop name.length with
    | _ :: value => some (String.ofList value)
    | [] => none
  match meant k (String.ofList name) with
  | [] => .error ("unrecognized option " ++ quoted ("--" ++ String.ofList name))
  | [(full, letter)] =>
    if k.valued.contains letter then
      match given?, rest with
      | some value, _ => .ok ((letter, value), rest)
      | none, value :: rest => .ok ((letter, value), rest)
      | none, [] => .error ("option " ++ quoted ("--" ++ full) ++ " requires an argument")
    else if given?.isSome then
      .error ("option " ++ quoted ("--" ++ full) ++ " doesn't allow an argument")
    else .ok ((letter, ""), rest)
  | several =>
    .error ("option " ++ quoted arg ++ " is ambiguous; possibilities:" ++
      String.join (several.map fun entry => " " ++ quoted ("--" ++ entry.1)))

/-- Options and operands, in any order unless the program is strict. The number bounds the
arguments. -/
def options (k : Known) : Nat → List String → Except String (Options × List String)
  | 0, args => .ok ([], args)
  | _ + 1, [] => .ok ([], [])
  | n + 1, arg :: args =>
    if arg == "--" then .ok ([], args)
    else
      match arg.toList with
      | '-' :: '-' :: _ => do
        let (found, args) ← longOption k arg args
        let (more, operands) ← options k n args
        return (found :: more, operands)
      | '-' :: c :: cs => do
        match ← cluster k (c :: cs), args with
        | (found, some c), value :: args =>
          let (more, operands) ← options k n args
          return (found ++ (c, value) :: more, operands)
        | (_, some c), [] =>
          throw ("option requires an argument -- " ++ quoted (String.singleton c))
        | (found, none), args =>
          let (more, operands) ← options k n args
          return (found ++ more, operands)
      | _ =>
        if k.strict then .ok ([], arg :: args)
        else do
          let (found, operands) ← options k n args
          return (found, arg :: operands)

def withOptions (k : Known) (status : Nat) (s : Setting) (args : List String)
    (run : Options → List String → Work) : Work :=
  match options k (args.length + 1) args with
  | .ok (found, operands) => run found operands
  | .error complaint => misused s complaint status

def has (found : Options) (letter : Char) : Bool :=
  found.any (·.1 == letter)

def value? (found : Options) (letter : Char) : Option String :=
  found.reverse.lookup letter

def last? (found : Options) (letters : List Char) : Option (Char × String) :=
  found.reverse.find? fun entry => letters.contains entry.1

/-! ## Input -/

def openOperand (w : Work) (s : Setting) (name : String) : Except Trouble (Flow × Work) :=
  if name == "-" || name == "/dev/stdin" then .ok (w.input, { w with input := {} })
  else (s.files.read s.directory name).map fun flow => (flow, w)

def eachInput (s : Setting) (complaint : String → Trouble → String) (operands : List String)
    (step : Work → String → Flow → Work) : Work :=
  (if operands.isEmpty then ["-"] else operands).foldl
    (fun w name =>
      match openOperand w s name with
      | .ok (flow, w) => step w name flow
      | .error t => w.complain s.name (complaint name t) 1)
    s.idle

def plainly (name : String) (t : Trouble) : String :=
  name ++ ": " ++ t.reason

def cannotOpen (name : String) (t : Trouble) : String :=
  if t == .isDirectory then "error reading " ++ quoted name ++ ": " ++ t.reason
  else "cannot open " ++ quoted name ++ " for reading: " ++ t.reason

def filtered (s : Setting) (operands : List String) (change : Bytes → Bytes) : Work :=
  (eachInput s plainly operands fun w _ flow => w.print flow).mapOut (·.whole change)

/-! ## Lines -/

def linesOf (data : Bytes) : List Bytes :=
  let (lines, last) := data.foldr
    (fun b (found : List Bytes × Bytes) =>
      if b == 10 then (if found.2.isEmpty then found.1 else found.2 :: found.1, [b])
      else (found.1, b :: found.2))
    ([], [])
  if last.isEmpty then lines else last :: lines

def hasFeed (line : Bytes) : Bool :=
  line.getLast? == some 10

def withoutFeed (line : Bytes) : Bytes :=
  if hasFeed line then line.dropLast else line

def bareLines (data : Bytes) : List Bytes :=
  (linesOf data).map withoutFeed

def ended (line : Bytes) : Bytes :=
  line ++ [10]

def asText (line : Bytes) : String :=
  Text.lossy line

def rightAligned (width : Nat) (n : Nat) : String :=
  let ds := Nat.toDigits 10 n
  String.ofList (List.replicate (width - ds.length) ' ' ++ ds)

def precedes (a b : Bytes) : Bool :=
  !(b.map UInt8.toNat).lex (a.map UInt8.toNat) fun m n => m < n

def sized? (text : String) : Option Nat :=
  let ds := text.toList.takeWhile Char.isDigit
  let unit := String.ofList (text.toList.drop ds.length)
  let units := [("", 1), ("b", 512), ("k", 1024), ("K", 1024), ("kB", 1000), ("KB", 1000),
    ("KiB", 1024), ("M", 1048576), ("m", 1048576), ("MB", 1000000), ("MiB", 1048576),
    ("G", 1073741824), ("GB", 1000000000), ("GiB", 1073741824)]
  if ds.isEmpty then none else (units.lookup unit).map (Decimal.natOf ds * ·)

end Tool
end BlockCanvas.Sandbox
