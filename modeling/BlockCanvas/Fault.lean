/-!
Faults of the formats and of the machine underneath. They are named and not explained: which byte is
wrong is of no use to someone who drags blocks.
-/
namespace BlockCanvas

inductive Fault where
  | json
  | xml
  | utf8
  | zip
  | io
  deriving DecidableEq, Repr

def Fault.text : Fault → String
  | .json => "<json>"
  | .xml => "<xml>"
  | .utf8 => "<utf8>"
  | .zip => "<zip>"
  | .io => "<io>"

end BlockCanvas
