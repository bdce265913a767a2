import BlockCanvas.Block.Kind
import BlockCanvas.Fault
import BlockCanvas.Json.Printer

/-!
What a submission has to do: print an expected text, and use blocks of some kinds. Kinds are named
loosely and echoed as they were named.
-/
namespace BlockCanvas.Grading

structure Requirements where
  expected : Option String := none
  kinds : List String := []
  deriving DecidableEq, Repr

inductive Malformed where
  | notJson
  | notAnObject
  | expectedNotAString (found : Json)
  | kindsNotAnArray
  | kindNotAString (found : Json)

def Malformed.message : Malformed → String
  | .notJson => Fault.json.text
  | .notAnObject => "requirements must be a JSON object"
  | .expectedNotAString found => "expectedOutput must be a string, found " ++ found.compact
  | .kindsNotAnArray => "requiredKinds must be an array"
  | .kindNotAString found => "requiredKinds entry " ++ found.compact ++ " is not a string"

/-- The interpreter could not be reached; this says nothing about the program. -/
inductive InterpreterError where
  | unavailable (reason : String)
  | io (reason : String)
  deriving DecidableEq, Repr

def InterpreterError.message : InterpreterError → String
  | .unavailable reason => "Interpreter unavailable: " ++ reason
  | .io reason => "Interpreter I/O failure: " ++ reason

inductive CheckError where
  | missingRequiredKinds
  | unknownKind (name : String)
  | invalidRequirements (reason : Malformed)
  | interpreter (error : InterpreterError)

def CheckError.message : CheckError → String
  | .missingRequiredKinds => "Requirements are missing 'requiredKinds'."
  | .unknownKind name => "Unknown block kind '" ++ name ++ "' in requirements."
  | .invalidRequirements reason => "Invalid requirements: " ++ reason.message
  | .interpreter error => error.message

namespace Requirements

def resolveNames : List String → Except CheckError (List (Kind × String))
  | [] => .ok []
  | name :: names =>
    match Kind.ofText? name with
    | none => .error (.unknownKind name)
    | some kind => (resolveNames names).map ((kind, name) :: ·)

def resolved (r : Requirements) : Except CheckError (List (Kind × String)) :=
  resolveNames r.kinds

def kindNames : List Json → Except CheckError (List String)
  | [] => .ok []
  | .string name :: items => (kindNames items).map (name :: ·)
  | item :: _ => .error (.invalidRequirements (.kindNotAString item))

def expectedOf : Option Json → Except CheckError (Option String)
  | none => .ok none
  | some .null => .ok none
  | some (.string text) => .ok (some text)
  | some found => .error (.invalidRequirements (.expectedNotAString found))

def ofJson (value : Json) : Except CheckError Requirements := do
  let members ← match value with
    | .object members => .ok members
    | _ => .error (.invalidRequirements .notAnObject)
  let expected ← expectedOf (Json.find? "expectedOutput" members)
  let items ← match Json.find? "requiredKinds" members with
    | none => .error .missingRequiredKinds
    | some (.array items) => .ok items
    | some _ => .error (.invalidRequirements .kindsNotAnArray)
  let kinds ← kindNames items
  let requirements : Requirements := ⟨expected, kinds⟩
  let _ ← requirements.resolved
  return requirements

def ofText (json : Json.Codec) (text : String) : Except CheckError Requirements :=
  match json.read text with
  | none => .error (.invalidRequirements .notJson)
  | some value => ofJson value

end Requirements
end BlockCanvas.Grading
