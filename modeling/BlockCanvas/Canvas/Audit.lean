import BlockCanvas.Canvas.Edit

/-!
A check of the ownership invariants: every link points back, every block has exactly one owner, and
an else comes last in its chain.
-/
namespace BlockCanvas.Canvas

def staleChild? (c : Canvas) (host : BlockId) (index : Nat) (s : Slot BlockId) : Option BlockId :=
  s.children.find? fun child => (c.block? child).map Block.owner != some (.slot ⟨host, index⟩)

def staleConnector? (c : Canvas) (b : Block) : Option BlockId :=
  b.chain.find? fun k => (c.block? k).map Block.owner != some (.chain b.id)

def elseBeforeEnd (c : Canvas) (b : Block) : Bool :=
  b.chain.dropLast.any c.isElse

def brokenLink? (c : Canvas) (b : Block) : Option String :=
  match b.slots.zipIdx.findSome? fun s => c.staleChild? b.id s.2 s.1 with
  | some child => some (child.text ++ " has a stale parent link")
  | none =>
    match c.staleConnector? b with
    | some k => some (k.text ++ " has a stale chain link")
    | none => if c.elseBeforeEnd b then some ("else of " ++ b.id.text ++ " is not last") else none

def mentions (c : Canvas) : List BlockId :=
  c.roots ++ c.blocks.flatMap Block.owned

def owners (c : Canvas) (id : BlockId) : Nat :=
  c.mentions.count id

def wrongOwnerCount? (c : Canvas) (b : Block) : Option String :=
  let n := c.owners b.id
  if n == 1 then none else some (b.id.text ++ " has " ++ toString n ++ " owners")

def violation? (c : Canvas) : Option String :=
  match c.blocks.findSome? c.brokenLink? with
  | some text => some text
  | none =>
    match c.blocks.findSome? c.wrongOwnerCount? with
    | some text => some text
    | none =>
      if c.mentions.all fun id => (c.block? id).isSome then none
      else some "an owner references a missing block"

end BlockCanvas.Canvas
