import BlockCanvas.Canvas.Refusal

/-!
A canvas: a store of blocks in ascending order of their ids, the free blocks in the order they were
placed, and the events of committed changes that nobody has taken yet. Ownership is kept twice, as
lists in the owner and as a link in the owned block.
-/
namespace BlockCanvas

inductive Event where
  | created (block : BlockId)
  | nested (block : BlockId) (slot : SlotId) (evicted : Option BlockId)
  | connected (block : BlockId) (head : BlockId)
  | freed (block : BlockId)
  | discarded (blocks : List BlockId)
  | literalEdited (slot : SlotId)
  | attributeEdited (block : BlockId)
  deriving DecidableEq, Repr

structure Canvas where
  blocks : List Block := []
  roots : List BlockId := []
  nextId : BlockId := 1
  revision : Nat := 0
  events : List Event := []
  bounds : Rect Float := ⟨0, 0, 1600, 1200⟩
  discardZone : Option (Rect Float) := none

namespace Canvas

def empty : Canvas :=
  {}

def withBounds (bounds : Rect Float) : Canvas :=
  { empty with bounds }

def block? (c : Canvas) (id : BlockId) : Option Block :=
  c.blocks.find? fun b => b.id == id

def kind? (c : Canvas) (id : BlockId) : Option Kind :=
  (c.block? id).map fun b => b.kind

def size (c : Canvas) : Nat :=
  c.blocks.length

def slot? (c : Canvas) (slot : SlotId) : Option (Slot BlockId) :=
  (c.block? slot.host).bind fun b => b.slots[slot.index]?

def slotNamed? (c : Canvas) (host : BlockId) (name : String) : Option SlotId :=
  ((c.block? host).bind fun b => b.slotIndex? name).map fun index => ⟨host, index⟩

def place (c : Canvas) (slot : SlotId) : Except Refusal Place :=
  match c.block? slot.host, c.slot? slot with
  | some host, some s => .ok (.slot host.kind s.shape)
  | _, _ => .error (.unknownSlot slot)

def kindsPresent (c : Canvas) : List Kind :=
  Kind.all.filter fun k => c.blocks.any fun b => b.kind == k

def parent? (c : Canvas) (id : BlockId) : Option BlockId :=
  match (c.block? id).map Block.owner with
  | some (.slot slot) => some slot.host
  | some (.chain head) => some head
  | _ => none

def climb (c : Canvas) : Nat → BlockId → List BlockId
  | 0, _ => []
  | n + 1, id => id :: match c.parent? id with
    | some owner => c.climb n owner
    | none => []

/-- A block, its owner, the owner of that, and so on. No way up is longer than the store. -/
def ancestry (c : Canvas) (id : BlockId) : List BlockId :=
  c.climb (c.size + 1) id

def isWithin (c : Canvas) (id ancestor : BlockId) : Bool :=
  (c.ancestry id).contains ancestor

def anchor (c : Canvas) (id : BlockId) : Point Float :=
  match (c.ancestry id).getLast?.bind c.block? with
  | some top => top.position
  | none => Point.origin

def isConnected (c : Canvas) (id : BlockId) : Bool :=
  match (c.block? id).map Block.owner with
  | some (.chain _) => true
  | _ => false

def drainEvents (c : Canvas) : List Event × Canvas :=
  (c.events, { c with events := [] })

end Canvas
end BlockCanvas
