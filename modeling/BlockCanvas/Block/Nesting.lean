import BlockCanvas.Block.Kind

/-!
Which block fits where.
-/
namespace BlockCanvas

inductive Shape where
  | value
  | statement
  deriving DecidableEq, Repr, Inhabited

inductive Place where
  | canvas
  | slot (host : Kind) (shape : Shape)
  deriving DecidableEq, Repr

inductive Candidate where
  | block (kind : Kind)
  | typed
  deriving DecidableEq, Repr

def canNest : Place → Candidate → Bool
  | .canvas, .block kind => kind.isStatement
  | .canvas, .typed => false
  | .slot host .statement, .block kind => host.isControlFlow && kind.isStatement
  | .slot host .statement, .typed => host.isControlFlow
  | .slot _ .value, .typed => true
  | .slot _ .value, .block .operation => true
  | .slot host .value, .block .assignment => host != .operation
  | .slot _ .value, .block _ => false

end BlockCanvas
