import BlockCanvas.Text.Blank

/-!
The kinds of blocks and of operators, their names, and the spellings that are read as them.
-/
namespace BlockCanvas

inductive Kind where
  | assignment
  | operation
  | print
  | ifBranch
  | elifBranch
  | elseBranch
  | whileLoop
  | doWhileLoop
  | forLoop
  deriving DecidableEq, Repr, Inhabited

namespace Kind

def all : List Kind :=
  [.assignment, .operation, .print, .ifBranch, .elifBranch, .elseBranch, .whileLoop, .doWhileLoop,
    .forLoop]

def name : Kind → String
  | .assignment => "variable"
  | .operation => "operator"
  | .print => "print"
  | .ifBranch => "if"
  | .elifBranch => "elif"
  | .elseBranch => "else"
  | .whileLoop => "while"
  | .doWhileLoop => "do_while"
  | .forLoop => "for"

def isStatement (k : Kind) : Bool :=
  k != .operation

def isConnector (k : Kind) : Bool :=
  k == .elifBranch || k == .elseBranch

def isControlFlow : Kind → Bool
  | .assignment | .operation | .print => false
  | _ => true

def spellings : List (String × Kind) :=
  all.map (fun k => (k.name, k)) ++
    [("var", .assignment), ("dowhile", .doWhileLoop), ("do-while", .doWhileLoop)]

/-- Case and surrounding white space do not matter. -/
def ofText? (text : String) : Option Kind :=
  spellings.lookup (Text.lowered (Text.trimmed text))

end Kind

inductive Operator where
  | add
  | subtract
  | multiply
  | divide
  | equal
  | notEqual
  | less
  | lessEqual
  | greater
  | greaterEqual
  deriving DecidableEq, Repr, Inhabited

namespace Operator

def all : List Operator :=
  [.add, .subtract, .multiply, .divide, .equal, .notEqual, .less, .lessEqual, .greater,
    .greaterEqual]

def symbol : Operator → String
  | .add => "+"
  | .subtract => "-"
  | .multiply => "*"
  | .divide => "/"
  | .equal => "=="
  | .notEqual => "!="
  | .less => "<"
  | .lessEqual => "<="
  | .greater => ">"
  | .greaterEqual => ">="

def name : Operator → String
  | .add => "add"
  | .subtract => "subtract"
  | .multiply => "multiply"
  | .divide => "divide"
  | .equal => "equal"
  | .notEqual => "notequal"
  | .less => "less"
  | .lessEqual => "lessequal"
  | .greater => "greater"
  | .greaterEqual => "greaterequal"

def ofText? (text : String) : Option Operator :=
  let word := Text.lowered (Text.trimmed text)
  all.find? fun op => op.name == word || op.symbol == word

end Operator
end BlockCanvas
