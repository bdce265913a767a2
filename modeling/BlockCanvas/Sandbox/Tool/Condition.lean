import BlockCanvas.Sandbox.Format
import BlockCanvas.Sandbox.Tool.Basic

/-!
Conditions: whether texts are equal or empty, numbers in order, files there.
-/
namespace BlockCanvas.Sandbox.Tool
open Host

inductive ConditionFault where
  | notNumber (text : String)
  | unexpected (last next : String)
  | notUnary (operator : String)
  | notBinary (operator : String)
  | missingArgument (after : String)
  | missingBracket
  deriving DecidableEq, Repr

abbrev Judged := Except ConditionFault (Bool × List String)

def numberOperators : List (String × (Int → Int → Bool)) :=
  [("-eq", fun a b => a == b), ("-ne", fun a b => a != b), ("-lt", fun a b => a < b),
    ("-le", fun a b => a ≤ b), ("-gt", fun a b => a > b), ("-ge", fun a b => a ≥ b)]

def textOperators : List (String × (String → String → Bool)) :=
  [("=", fun a b => a == b), ("==", fun a b => a == b), ("!=", fun a b => a != b),
    ("<", fun a b => a < b), (">", fun a b => b < a)]

def fileOperators : List String :=
  ["-nt", "-ot", "-ef"]

def isBinary (dialect : Dialect) (operator : String) : Bool :=
  (numberOperators.lookup operator).isSome || fileOperators.contains operator ||
    ((textOperators.lookup operator).isSome && (operator != "==" || dialect == .program))

def isUnary (operator : String) : Bool :=
  ["-n", "-z", "-b", "-c", "-d", "-e", "-f", "-g", "-h", "-k", "-L", "-O", "-G", "-p", "-r", "-s",
    "-S", "-t", "-u", "-w", "-x"].contains operator

def conditionNumber (text : String) : Except ConditionFault Int :=
  let cs := text.toList.dropWhile Arithmetic.isGap
  let (negative, ds) : Bool × List Char := match cs with
    | '-' :: ds => (true, ds)
    | '+' :: ds => (false, ds)
    | ds => (false, ds)
  let found := ds.takeWhile Char.isDigit
  if found.isEmpty || !(ds.drop found.length).all Arithmetic.isGap then .error (.notNumber text)
  else .ok (if negative then -(Decimal.natOf found : Int) else Decimal.natOf found)

def unary (s : Setting) (operator text : String) : Bool :=
  match operator with
  | "-n" => text != ""
  | "-z" => text == ""
  | "-f" => s.files.isFile s.directory text
  | "-d" => s.files.isDirectory s.directory text
  | "-x" => s.files.isDirectory s.directory text || s.files.isExecutable s.directory text
  | "-s" => match s.files.find s.directory text with
    | .ok (_, .file data _) => !data.isEmpty
    | .ok (_, .device _) => false
    | .ok _ => true
    | .error _ => false
  | "-c" => match s.files.find s.directory text with
    | .ok (_, .device _) => true
    | _ => false
  | "-t" => false
  | _ =>
    ["-e", "-r", "-w", "-O", "-G"].contains operator && (s.files.find s.directory text).isOk

def binary (s : Setting) (a operator b : String) : Except ConditionFault Bool :=
  match numberOperators.lookup operator, textOperators.lookup operator with
  | some compare, _ => do
    let m ← conditionNumber a
    let n ← conditionNumber b
    return compare m n
  | none, some compare => .ok (compare a b)
  | none, none =>
    let place (name : String) : Option Path := match s.files.find s.directory name with
      | .ok (path, _) => some path
      | .error _ => none
    .ok (operator == "-ef" && (place a).isSome && place a == place b)

mutual
def disjunction (d : Dialect) (s : Setting) : Nat → List String → Judged
  | 0, args => .ok (false, args)
  | n + 1, args => do
    let (first, rest) ← conjunction d s n args
    match rest with
    | "-o" :: rest =>
      let (second, rest) ← disjunction d s n rest
      return (first || second, rest)
    | _ => return (first, rest)
def conjunction (d : Dialect) (s : Setting) : Nat → List String → Judged
  | 0, args => .ok (false, args)
  | n + 1, args => do
    let (first, rest) ← negation d s n args
    match rest with
    | "-a" :: rest =>
      let (second, rest) ← conjunction d s n rest
      return (first && second, rest)
    | _ => return (first, rest)
def negation (d : Dialect) (s : Setting) : Nat → List String → Judged
  | 0, args => .ok (false, args)
  | n + 1, args => do
    match args with
    | "!" :: next :: rest =>
      let (inner, rest) ← negation d s n (next :: rest)
      return (!inner, rest)
    | _ => primary d s n args
def primary (d : Dialect) (s : Setting) : Nat → List String → Judged
  | 0, args => .ok (false, args)
  | n + 1, args => do
    match args with
    | [] => if d == .builtin then return (false, []) else throw (.missingArgument "-a")
    | a :: operator :: b :: rest =>
      if isBinary d operator then return (← binary s a operator b, rest)
      else if a == "(" then
        let (inner, rest) ← disjunction d s n (operator :: b :: rest)
        match rest with
        | ")" :: rest => return (inner, rest)
        | _ => throw (.missingArgument a)
      else if isUnary a then return (unary s a operator, b :: rest)
      else return (a != "", operator :: b :: rest)
    | [a, b] =>
      if isUnary a then return (unary s a b, [])
      else if isBinary d b then throw (.missingArgument b)
      else return (a != "", [b])
    | [a] => return (a != "", [])
end

/-- Whether the arguments hold as a condition. Up to four of them are read by their number alone. -/
def judge (d : Dialect) (s : Setting) (args : List String) : Except ConditionFault Bool := do
  match args with
  | [] => return false
  | [a] => return a != ""
  | ["!", a] => return a == ""
  | ["(", a, ")"] => return a != ""
  | [a, operator, b] =>
    if isBinary d operator then binary s a operator b else general args
  | ["!", a, operator, b] =>
    if isBinary d operator then return !(← binary s a operator b) else general args
  | _ => general args
where
  general (args : List String) : Except ConditionFault Bool := do
    let (answer, rest) ← disjunction d s (4 * args.length + 4) args
    match rest with
    | [] => return answer
    | next :: _ =>
      let last := (args[args.length - rest.length - 1]?).getD next
      match d, args with
      | .program, [a, b] =>
        if a.startsWith "-" && a.length == 2 then throw (.notUnary a) else throw (.missingArgument b)
      | .program, [_, operator, _] => throw (.notBinary operator)
      | _, _ => throw (.unexpected last next)

def ConditionFault.text : Dialect → ConditionFault → String
  | .builtin, .notNumber text => "Illegal number: " ++ text
  | .builtin, .unexpected last _ => last ++ ": unexpected operator"
  | .builtin, .notUnary operator => operator ++ ": unexpected operator"
  | .builtin, .notBinary operator => operator ++ ": unexpected operator"
  | .builtin, .missingArgument after => after ++ ": argument expected"
  | .builtin, .missingBracket => "missing ]"
  | .program, .notNumber text => "invalid integer " ++ quoted text
  | .program, .unexpected _ next => "extra argument " ++ quoted next
  | .program, .notUnary operator => quoted operator ++ ": unary operator expected"
  | .program, .notBinary operator => quoted operator ++ ": binary operator expected"
  | .program, .missingArgument text => "missing argument after " ++ quoted text
  | .program, .missingBracket => "missing ']'"

def condition (d : Dialect) (bracket : Bool) : Tool := fun s args =>
  let judged : Except ConditionFault Bool :=
    if bracket && args.getLast? != some "]" then .error .missingBracket
    else judge d s (if bracket then args.dropLast else args)
  match judged with
  | .ok answer => { s.idle with status := if answer then 0 else 1 }
  | .error fault => s.idle.complain s.name (fault.text d) 2

end BlockCanvas.Sandbox.Tool
