import BlockCanvas.Decimal.Text

/-!
Arithmetic of scripts: whole numbers of 64 bits with the operators of C. A variable stands for the
number that it holds, an unset one for zero.
-/
namespace BlockCanvas.Sandbox

namespace Arithmetic

inductive Operator where
  | bitOr
  | bitXor
  | bitAnd
  | equal
  | unequal
  | less
  | lessEqual
  | greater
  | greaterEqual
  | left
  | right
  | add
  | subtract
  | multiply
  | divide
  | remainder
  deriving DecidableEq, Repr

inductive Sign where
  | plus
  | minus
  | complement
  | logicalNot
  deriving DecidableEq, Repr

inductive Expression where
  | number (n : Int)
  | variable (name : String)
  | signed (s : Sign) (e : Expression)
  | binary (op : Operator) (a b : Expression)
  | both (a b : Expression)
  | either (a b : Expression)
  | choice (condition yes no : Expression)
  | assign (name : String) (op : Option Operator) (e : Expression)

inductive Fault where
  | expecting (what : String)
  | divisionByZero
  | illegalNumber (text : String)
  deriving DecidableEq, Repr

/-! ## Numbers -/

def wrapped (n : Int) : Int :=
  Int.bmod n (Nat.pow 2 64)

def least : Int := -Int.pow 2 63

def greatest : Int := Int.pow 2 63 - 1

def clamped (n : Int) : Int :=
  max least (min greatest n)

def digitOf (c : Char) : Nat :=
  if c.isDigit then c.toNat - 48 else c.toLower.toNat - 87

def isHex (c : Char) : Bool :=
  c.isDigit || ('a' ≤ c.toLower && c.toLower ≤ 'f')

def valueOf (base : Nat) (ds : List Char) : Nat :=
  ds.foldl (fun n c => base * n + digitOf c) 0

def number? (cs : List Char) : Option (Nat × List Char) :=
  let read (base : Nat) (isDigit : Char → Bool) (cs : List Char) : Nat × List Char :=
    (valueOf base (cs.takeWhile isDigit), cs.dropWhile isDigit)
  match cs with
  | '0' :: x :: d :: rest =>
    if (x == 'x' || x == 'X') && isHex d then some (read 16 isHex (d :: rest))
    else some (read 8 (fun c => '0' ≤ c && c ≤ '7') cs)
  | '0' :: _ => some (read 8 (fun c => '0' ≤ c && c ≤ '7') cs)
  | c :: _ => if c.isDigit then some (read 10 Char.isDigit cs) else none
  | [] => none

def isGap (c : Char) : Bool :=
  c == ' ' || ('\t' ≤ c && c ≤ '\r')

def signedNumber? (cs : List Char) : Option (Int × List Char) :=
  match cs.dropWhile isGap with
  | '-' :: cs => (number? cs).map fun (n, rest) => (clamped (-(n : Int)), rest)
  | '+' :: cs => (number? cs).map fun (n, rest) => (clamped n, rest)
  | cs => (number? cs).map fun (n, rest) => (clamped n, rest)

def ofText? (text : String) : Option Int :=
  match signedNumber? text.toList with
  | some (n, rest) => if rest.all isGap then some n else none
  | none => if text.isEmpty then some 0 else none

/-! ## Reading -/

def isNameStart (c : Char) : Bool :=
  c.isAlpha || c == '_'

def isNameChar (c : Char) : Bool :=
  isNameStart c || c.isDigit

/-- The operators of two numbers by how tightly they bind, the loosest first; of those that begin
alike the longer comes first. -/
def levels : List (List (String × Operator)) :=
  [[("|", .bitOr)], [("^", .bitXor)], [("&", .bitAnd)],
    [("==", .equal), ("!=", .unequal)],
    [("<=", .lessEqual), (">=", .greaterEqual), ("<", .less), (">", .greater)],
    [("<<", .left), (">>", .right)],
    [("+", .add), ("-", .subtract)],
    [("*", .multiply), ("/", .divide), ("%", .remainder)]]

def assignments : List (String × Option Operator) :=
  [("=", none), ("|=", some .bitOr), ("^=", some .bitXor), ("&=", some .bitAnd),
    ("<<=", some .left), (">>=", some .right), ("+=", some .add), ("-=", some .subtract),
    ("*=", some .multiply), ("/=", some .divide), ("%=", some .remainder)]

def symbols : List String :=
  ["<<=", ">>=", "&&", "||", "==", "!=", "<=", ">=", "<<", ">>", "|=", "^=", "&=", "+=", "-=", "*=",
    "/=", "%=", "|", "^", "&", "<", ">", "+", "-", "*", "/", "%", "=", "!", "~", "?", ":", "(", ")"]

inductive Token where
  | number (n : Int)
  | name (name : String)
  | symbol (text : String)
  deriving DecidableEq, Repr

def tokens : Nat → List Char → Option (List Token)
  | 0, _ => none
  | n + 1, cs =>
    match cs with
    | [] => some []
    | c :: rest =>
      if isGap c then tokens n rest
      else if isNameStart c then
        (tokens n (cs.dropWhile isNameChar)).map (.name (String.ofList (cs.takeWhile isNameChar)) :: ·)
      else
        match number? cs, symbols.find? fun s => s.toList.isPrefixOf cs with
        | some (m, rest), _ => (tokens n rest).map (.number (clamped m) :: ·)
        | none, some s => (tokens n (cs.drop s.length)).map (.symbol s :: ·)
        | none, none => (tokens n rest).map (.symbol (String.singleton c) :: ·)

abbrev Reading := Except Fault (Expression × List Token)

def chain (operand : List Token → Reading) (level : List (String × Operator)) :
    Nat → Expression → List Token → Reading
  | 0, e, ts => .ok (e, ts)
  | n + 1, e, ts =>
    match ts with
    | .symbol s :: rest =>
      match level.lookup s with
      | some op => do
        let (second, rest) ← operand rest
        chain operand level n (.binary op e second) rest
      | none => .ok (e, ts)
    | _ => .ok (e, ts)

def levelled (operand : List Token → Reading) (size : Nat) :
    List (List (String × Operator)) → List Token → Reading
  | [], ts => operand ts
  | level :: tighter, ts => do
    let (first, rest) ← levelled operand size tighter ts
    chain (levelled operand size tighter) level size first rest

mutual
def expression : Nat → List Token → Reading
  | 0, _ => .error (.expecting "primary")
  | n + 1, ts =>
    let conditional : Reading := do
      let (condition, rest) ← disjunction n ts
      match rest with
      | .symbol "?" :: rest =>
        let (yes, rest) ← expression n rest
        match rest with
        | .symbol ":" :: rest =>
          let (no, rest) ← expression n rest
          return (.choice condition yes no, rest)
        | _ => throw (.expecting "':'")
      | _ => return (condition, rest)
    match ts with
    | .name name :: .symbol s :: rest =>
      match assignments.lookup s with
      | some op => do
        let (e, rest) ← expression n rest
        return (.assign name op e, rest)
      | none => conditional
    | _ => conditional
def disjunction : Nat → List Token → Reading
  | 0, _ => .error (.expecting "primary")
  | n + 1, ts => do
    let (first, rest) ← conjunction n ts
    match rest with
    | .symbol "||" :: rest =>
      let (second, rest) ← disjunction n rest
      return (.either first second, rest)
    | _ => return (first, rest)
def conjunction : Nat → List Token → Reading
  | 0, _ => .error (.expecting "primary")
  | n + 1, ts => do
    let (first, rest) ← levelled (primary n) ts.length levels ts
    match rest with
    | .symbol "&&" :: rest =>
      let (second, rest) ← conjunction n rest
      return (.both first second, rest)
    | _ => return (first, rest)
def primary : Nat → List Token → Reading
  | 0, _ => .error (.expecting "primary")
  | n + 1, ts =>
    let after (s : Sign) (rest : List Token) : Reading := do
      let (e, rest) ← primary n rest
      return (.signed s e, rest)
    match ts with
    | .number m :: rest => .ok (.number m, rest)
    | .name name :: rest => .ok (.variable name, rest)
    | .symbol "(" :: rest => do
      let (e, rest) ← expression n rest
      match rest with
      | .symbol ")" :: rest => return (e, rest)
      | _ => throw (.expecting "')'")
    | .symbol "-" :: rest => after .minus rest
    | .symbol "+" :: rest => after .plus rest
    | .symbol "~" :: rest => after .complement rest
    | .symbol "!" :: rest => after .logicalNot rest
    | _ => .error (.expecting "primary")
end

def read (text : String) : Except Fault Expression :=
  match tokens (text.length + 1) text.toList with
  | none => .error (.expecting "primary")
  | some ts => do
    let (e, rest) ← expression (4 * ts.length + 4) ts
    if rest.isEmpty then return e else throw (.expecting "EOF")

/-! ## Values -/

def truth (b : Bool) : Int :=
  if b then 1 else 0

def Sign.apply (n : Int) : Sign → Int
  | .plus => n
  | .minus => wrapped (-n)
  | .complement => -n - 1
  | .logicalNot => truth (n == 0)

/-- Division goes toward zero, and a remainder has the sign of what is divided. -/
def Operator.apply (a b : Int) : Operator → Except Fault Int
  | .bitOr => .ok ((BitVec.ofInt 64 a ||| BitVec.ofInt 64 b).toInt)
  | .bitXor => .ok ((BitVec.ofInt 64 a ^^^ BitVec.ofInt 64 b).toInt)
  | .bitAnd => .ok ((BitVec.ofInt 64 a &&& BitVec.ofInt 64 b).toInt)
  | .equal => .ok (truth (a == b))
  | .unequal => .ok (truth (a != b))
  | .less => .ok (truth (a < b))
  | .lessEqual => .ok (truth (a ≤ b))
  | .greater => .ok (truth (a > b))
  | .greaterEqual => .ok (truth (a ≥ b))
  | .left => .ok (wrapped (a * Int.pow 2 (b % 64).toNat))
  | .right => .ok (a.fdiv (Int.pow 2 (b % 64).toNat))
  | .add => .ok (wrapped (a + b))
  | .subtract => .ok (wrapped (a - b))
  | .multiply => .ok (wrapped (a * b))
  | .divide => if b == 0 then .error .divisionByZero else .ok (wrapped (a.tdiv b))
  | .remainder => if b == 0 then .error .divisionByZero else .ok (a.tmod b)

abbrev Evaluation := StateT (List (String × Int)) (Except Fault)

def lookUp (values : String → Option String) (name : String) : Evaluation Int := do
  match (← get).lookup name, values name with
  | some n, _ => return n
  | none, none => return 0
  | none, some text =>
    match ofText? text with
    | some n => return n
    | none => throw (.illegalNumber text)

def evaluate (values : String → Option String) : Expression → Evaluation Int
  | .number n => return n
  | .variable name => lookUp values name
  | .signed s e => return s.apply (← evaluate values e)
  | .binary op a b => do
    let m ← evaluate values a
    let n ← evaluate values b
    op.apply m n
  | .both a b => do
    if (← evaluate values a) == 0 then return 0
    else return truth ((← evaluate values b) != 0)
  | .either a b => do
    if (← evaluate values a) != 0 then return 1
    else return truth ((← evaluate values b) != 0)
  | .choice condition yes no => do
    if (← evaluate values condition) != 0 then evaluate values yes else evaluate values no
  | .assign name op e => do
    let n ← match op with
      | none => evaluate values e
      | some op => do
        let m ← lookUp values name
        let n ← evaluate values e
        op.apply m n
    modify ((name, n) :: ·)
    return n

def value (values : String → Option String) (text : String) :
    Except Fault (Int × List (String × Int)) := do
  let e ← read text
  let (n, settings) ← (evaluate values e).run []
  return (n, settings.reverse)

def Fault.text (expression : String) : Fault → String
  | .expecting what => "arithmetic expression: expecting " ++ what ++ ": \"" ++ expression ++ "\""
  | .divisionByZero => "arithmetic expression: division by zero: \"" ++ expression ++ "\""
  | .illegalNumber text => "Illegal number: " ++ text

end Arithmetic
end BlockCanvas.Sandbox
