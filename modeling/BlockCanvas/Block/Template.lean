import BlockCanvas.Block.Basic

/-!
The palette: what a fresh block of each kind looks like.
-/
namespace BlockCanvas

namespace Template

def label (kind : Kind) : String :=
  match kind with
  | .assignment => "set variable"
  | .operation => "operator"
  | .print => "print"
  | .ifBranch => "if"
  | .elifBranch => "else if"
  | .elseBranch => "else"
  | .whileLoop => "while"
  | .doWhileLoop => "do ... while"
  | .forLoop => "for"

def face (kind : Kind) : Face :=
  match kind with
  | .assignment => ⟨kind, "x", none, none⟩
  | .operation => ⟨kind, "", some .add, none⟩
  | .forLoop => ⟨kind, "i", none, none⟩
  | _ => ⟨kind, "", none, none⟩

/-- A do-while loop tests after its body, so its body comes first. -/
def slots (kind : Kind) {β : Type} : List (Slot β) :=
  match kind with
  | .assignment | .print => [.value "value"]
  | .operation => [.value "left", .value "right"]
  | .ifBranch | .elifBranch | .whileLoop => [.value "condition", .body "body"]
  | .elseBranch => [.body "body"]
  | .doWhileLoop => [.body "body", .value "condition"]
  | .forLoop => [.value "start", .value "end", .value "step", .body "body"]

end Template
end BlockCanvas
