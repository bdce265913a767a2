import BlockCanvas.Decimal.Text

/-!
JSON values. Whole numbers of 64 bits stay whole and all others are doubles. The members of an
object are kept in ascending order of their keys, one per key.
-/
namespace BlockCanvas

inductive Json where
  | null
  | bool (b : Bool)
  | int (n : Int)
  | real (x : Float)
  | string (s : String)
  | array (items : List Json)
  | object (members : List (String × Json))
  deriving Inhabited

namespace Json

/-- Puts a member at its place in the key order; a later value of a key replaces an earlier one. -/
def insertMember (key : String) (value : Json) : List (String × Json) → List (String × Json)
  | [] => [(key, value)]
  | (k, v) :: rest =>
    if key < k then (key, value) :: (k, v) :: rest
    else if key == k then (key, value) :: rest
    else (k, v) :: insertMember key value rest

def ofMembers (members : List (String × Json)) : Json :=
  .object (members.foldl (fun sorted m => insertMember m.1 m.2 sorted) [])

def ofStrings (items : List String) : Json :=
  .array (items.map .string)

def ofFloat (x : Float) : Json :=
  match Binary.ofFloat x with
  | .finite .. => .real x
  | _ => .null

def ofOption {α : Type} (f : α → Json) : Option α → Json
  | none => .null
  | some a => f a

def members? : Json → Option (List (String × Json))
  | .object members => some members
  | _ => none

def items? : Json → Option (List Json)
  | .array items => some items
  | _ => none

def string? : Json → Option String
  | .string s => some s
  | _ => none

def bool? : Json → Option Bool
  | .bool b => some b
  | _ => none

def float? : Json → Option Float
  | .int n => some (Float.ofInt n)
  | .real x => some x
  | _ => none

def nat? : Json → Option Nat
  | .int n => if 0 ≤ n && n < Int.pow 2 64 then some n.toNat else none
  | _ => none

def find? (key : String) (members : List (String × Json)) : Option Json :=
  (members.find? fun m => m.1 == key).map Prod.snd

def member? (key : String) (value : Json) : Option Json :=
  value.members?.bind (find? key)

/-- The containers of a text that may be open at once. -/
def maxDepth : Nat := 127

structure Codec where
  read : String → Option Json
  write : Json → String

end Json
end BlockCanvas
