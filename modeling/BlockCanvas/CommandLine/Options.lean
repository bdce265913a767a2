import BlockCanvas.Decimal.Text

/-!
The options of the command line. A value stays pending until the next argument shows that it is
complete, so an argument that is unknown is complained of before the value that stands before it.
-/
namespace BlockCanvas.CommandLine

structure Options where
  input : String
  emit : Option String := none
  run : Bool := false
  expected : Option String := none
  required : List String := []
  requirements : Option String := none
  interpreter : String := "python3"
  timeout : Nat := 5000
  bundle : Option String := none
  reportJson : Option String := none
  deriving DecidableEq, Repr

inductive UsageError where
  | missingRequiredArgument
  | unknownArgument
  | invalidValue
  | valueValidation
  | argumentConflict
  | tooManyValues
  | displayHelp
  deriving DecidableEq, Repr

def usage : String :=
  "Compile a block canvas (JSON or XML) to Python source, optionally run and grade it.\n\n" ++
  "Usage: blocks [OPTIONS] <CANVAS>\n\n" ++
  "  --emit <PATH>          Write generated source to this path instead of stdout.\n" ++
  "  --run                  Run the generated program and grade it.\n" ++
  "  --expected <TEXT>      Expected program output (requires --run).\n" ++
  "  --require <KIND>       Block kind that must appear; repeatable (requires --run).\n" ++
  "  --requirements <PATH>  Read the requirements from a JSON file (requires --run).\n" ++
  "  --python <PROGRAM>     Interpreter used by --run.\n" ++
  "  --timeout-ms <MS>      Interpreter time limit in milliseconds.\n" ++
  "  --bundle <PATH>        Write a submission bundle (.zip).\n" ++
  "  --report-json <PATH>   Write the grading report as JSON (requires --run).\n"

def UsageError.message : UsageError → String
  | .missingRequiredArgument => "error: the argument <CANVAS> is missing"
  | .unknownArgument => "error: unexpected argument"
  | .invalidValue => "error: an option has no value"
  | .valueValidation => "error: the time limit is not a number"
  | .argumentConflict => "error: an option is given twice"
  | .tooManyValues => "error: a flag takes no value"
  | .displayHelp => usage

inductive Parameter where
  | canvas
  | emit
  | expected
  | required
  | requirements
  | interpreter
  | timeout
  | bundle
  | reportJson
  deriving DecidableEq, Repr

def Parameter.ofLong? : String → Option Parameter
  | "emit" => some .emit
  | "expected" => some .expected
  | "require" => some .required
  | "requirements" => some .requirements
  | "python" => some .interpreter
  | "timeout-ms" => some .timeout
  | "bundle" => some .bundle
  | "report-json" => some .reportJson
  | _ => none

def word64? (text : String) : Option Nat :=
  let ds := match text.toList with
    | '+' :: ds => ds
    | ds => ds
  if ds.isEmpty || !ds.all Decimal.asciiDigit then none
  else
    let n := Decimal.natOf ds
    if n < Nat.pow 2 64 then some n else none

def commaSeparated (text : String) : List String :=
  text.splitOn ","

structure Values where
  single : List (Parameter × String) := []
  required : List String := []
  run : Bool := false
  deriving DecidableEq, Repr

namespace Values

def has (v : Values) (p : Parameter) : Bool :=
  v.single.any (·.1 == p)

def checked (p : Parameter) (value : String) : Except UsageError String :=
  match p with
  | .canvas | .emit | .requirements | .bundle | .reportJson =>
    if value.isEmpty then .error .invalidValue else .ok value
  | .timeout => if (word64? value).isSome then .ok value else .error .valueValidation
  | .expected | .required | .interpreter => .ok value

/-- Takes a value. Only required kinds may be given more than once. -/
def take (v : Values) (p : Parameter) (value : String) : Except UsageError Values :=
  match p with
  | .required => .ok { v with required := v.required ++ commaSeparated value }
  | p =>
    if v.has p then .error .argumentConflict
    else (checked p value).map fun value => { v with single := v.single ++ [(p, value)] }

def options (v : Values) : Except UsageError Options :=
  match v.single.lookup .canvas with
  | none => .error .missingRequiredArgument
  | some input => .ok {
      input
      emit := v.single.lookup .emit
      run := v.run
      expected := v.single.lookup .expected
      required := v.required
      requirements := v.single.lookup .requirements
      interpreter := (v.single.lookup .interpreter).getD "python3"
      timeout := ((v.single.lookup .timeout).bind word64?).getD 5000
      bundle := v.single.lookup .bundle
      reportJson := v.single.lookup .reportJson }

end Values

/-- What was read, and what is pending: a parameter with its value or still without. `ended` says
that the rest are values. -/
structure Reading where
  values : Values := {}
  pending : Option (Parameter × Option String) := none
  positional : Bool := false
  ended : Bool := false
  deriving DecidableEq, Repr

namespace Reading

def settle (r : Reading) : Except UsageError Reading :=
  match r.pending with
  | none => .ok r
  | some (_, none) => .error .invalidValue
  | some (p, some value) =>
    (r.values.take p value).map fun values => { r with values, pending := none }

def addPositional (r : Reading) (arg : String) : Except UsageError Reading :=
  if r.positional then .error .unknownArgument
  else do
    let r ← r.settle
    return { r with pending := some (.canvas, some arg), positional := true }

def addFlag (r : Reading) : Except UsageError Reading := do
  let r ← r.settle
  if r.values.run then .error .argumentConflict
  else return { r with values := { r.values with run := true } }

def addLong (r : Reading) (name : String) (attached : Option String) :
    Except UsageError Reading :=
  match Parameter.ofLong? name with
  | some p => do
    let r ← r.settle
    match attached with
    | none => return { r with pending := some (p, none) }
    | some value => Reading.settle { r with pending := some (p, some value) }
  | none =>
    if name == "run" || name == "help" then
      match attached with
      | some _ => .error .tooManyValues
      | none => if name == "run" then r.addFlag else do
        let _ ← r.settle
        throw .displayHelp
    else .error .unknownArgument

def splitLong (cs : List Char) : String × Option String :=
  let name := cs.takeWhile (· != '=')
  (String.ofList name, match cs.drop name.length with
    | [] => none
    | _ :: value => some (String.ofList value))

def add (r : Reading) (arg : String) : Except UsageError Reading :=
  if r.ended then r.addPositional arg
  else
    match arg.toList with
    | ['-', '-'] => .ok { r with ended := true }
    | '-' :: '-' :: cs =>
      let (name, attached) := splitLong cs
      r.addLong name attached
    | '-' :: 'h' :: _ => do
      let _ ← r.settle
      throw .displayHelp
    | '-' :: _ :: _ => .error .unknownArgument
    | _ =>
      match r.pending with
      | some (p, none) => .ok { r with pending := some (p, some arg) }
      | _ => r.addPositional arg

end Reading

def Options.ofArguments (args : List String) : Except UsageError Options := do
  let r ← args.foldlM Reading.add {}
  let r ← r.settle
  r.values.options

end BlockCanvas.CommandLine
