import BlockCanvas.Block.Nesting
import BlockCanvas.Geometry.Basic

/-!
Blocks with their slots. Slots are the same whether they hold the ids of blocks (in a canvas), whole
blocks (in a tree) or descriptions of blocks (in a document), so the content of a slot is written
over any type of block.
-/
namespace BlockCanvas

abbrev BlockId := Nat

structure SlotId where
  host : BlockId
  index : Nat
  deriving DecidableEq, Repr, Inhabited

inductive Entry (β : Type) where
  | block (b : β)
  | line (text : String)
  deriving DecidableEq, Repr

/-- A value slot has at most one child; its literal is the typed input, shown while it is empty. -/
inductive Content (β : Type) where
  | value (child : Option β) (literal : String)
  | body (entries : List (Entry β))
  deriving DecidableEq, Repr

structure Slot (β : Type) where
  name : String
  content : Content β
  deriving DecidableEq, Repr

variable {β γ : Type}

def Entry.block? : Entry β → Option β
  | .block b => some b
  | .line _ => none

def Entry.filterMap (f : β → Option γ) : Entry β → Option (Entry γ)
  | .block b => (f b).map .block
  | .line text => some (.line text)

namespace Content

def shape : Content β → Shape
  | .value .. => .value
  | .body _ => .statement

def children : Content β → List β
  | .value child _ => child.toList
  | .body entries => entries.filterMap Entry.block?

def filterMap (f : β → Option γ) : Content β → Content γ
  | .value child literal => .value (child.bind f) literal
  | .body entries => .body (entries.filterMap (Entry.filterMap f))

end Content

namespace Slot

def value (name : String) : Slot β :=
  ⟨name, .value none ""⟩

def body (name : String) : Slot β :=
  ⟨name, .body []⟩

def shape (s : Slot β) : Shape :=
  s.content.shape

def children (s : Slot β) : List β :=
  s.content.children

def entries (s : Slot β) : List (Entry β) :=
  match s.content with
  | .value .. => []
  | .body entries => entries

def literal? (s : Slot β) : Option String :=
  match s.content with
  | .value _ literal => some literal
  | .body _ => none

/-- A value slot is populated when it holds a block or a literal that is not blank. -/
def isPopulated (s : Slot β) : Bool :=
  match s.content with
  | .value child literal => child.isSome || !Text.allBlank literal
  | .body entries => !entries.isEmpty

def filterMap (f : β → Option γ) (s : Slot β) : Slot γ :=
  ⟨s.name, s.content.filterMap f⟩

end Slot

structure Face where
  kind : Kind
  name : String
  operator : Option Operator
  override : Option String
  deriving DecidableEq, Repr, Inhabited

inductive Owner where
  | free
  | slot (place : SlotId)
  | chain (head : BlockId)
  deriving DecidableEq, Repr, Inhabited

/-- The position counts while the block is free. -/
structure Block extends Face where
  id : BlockId
  slots : List (Slot BlockId)
  chain : List BlockId
  owner : Owner
  position : Point Float

namespace Block

def slotIndex? (b : Block) (name : String) : Option Nat :=
  b.slots.findIdx? fun s => s.name == name

def isFree (b : Block) : Bool :=
  b.owner == .free

def owned (b : Block) : List BlockId :=
  b.slots.flatMap Slot.children ++ b.chain

end Block
end BlockCanvas
