import BlockCanvas.Block.Template
import BlockCanvas.Canvas.Tree

/-!
The edits of a canvas. An edit that may be refused answers with the canvas after it and the outcome;
its checks come first, and what follows them is a composition of total steps. Only attaching looks for
the host once more, when the block is out of its old place (it is there, `Canvas.attach_of_ok`). Each
committed edit raises the revision and queues an event.
-/
namespace BlockCanvas

namespace Content

def link (id : BlockId) : Content BlockId → Content BlockId
  | .value _ literal => .value (some id) literal
  | .body entries => .body (entries ++ [.block id])

/-- A vacated value slot keeps its literal, and a body its typed lines. -/
def unlink (id : BlockId) : Content BlockId → Content BlockId
  | .value child literal => .value (if child == some id then none else child) literal
  | .body entries => .body (entries.filter fun e => e.block? != some id)

end Content

namespace Canvas

def modify (c : Canvas) (id : BlockId) (f : Block → Block) : Canvas :=
  { c with blocks := c.blocks.map fun b => if b.id == id then f b else b }

def modifySlot (c : Canvas) (slot : SlotId) (f : Content BlockId → Content BlockId) : Canvas :=
  c.modify slot.host fun b =>
    { b with slots := b.slots.modify slot.index fun s => { s with content := f s.content } }

def commit (c : Canvas) (event : Event) : Canvas :=
  { c with revision := c.revision + 1, events := c.events ++ [event] }

def detach (c : Canvas) (id : BlockId) : Canvas :=
  let unlinked := match (c.block? id).map Block.owner with
    | some .free => { c with roots := c.roots.filter fun r => r != id }
    | some (.slot slot) => c.modifySlot slot (Content.unlink id)
    | some (.chain head) =>
      c.modify head fun b => { b with chain := b.chain.filter fun k => k != id }
    | none => c
  unlinked.modify id fun b => { b with owner := .free }

def makeFree (c : Canvas) (id : BlockId) (position : Point Float) : Canvas :=
  let c := c.modify id fun b => { b with owner := .free, position }
  if c.roots.contains id then c else { c with roots := c.roots ++ [id] }

def link (c : Canvas) (id : BlockId) (slot : SlotId) : Canvas :=
  (c.modifySlot slot (Content.link id)).modify id fun b => { b with owner := .slot slot }

def spawn (c : Canvas) (kind : Kind) (position : Point Float) : Canvas :=
  let fresh : Block :=
    { Template.face kind with
      id := c.nextId, slots := Template.slots kind, chain := [], owner := .free, position }
  { c with blocks := c.blocks ++ [fresh], roots := c.roots ++ [c.nextId], nextId := c.nextId + 1 }

def instantiate (c : Canvas) (kind : Kind) (position : Point Float) : Canvas × BlockId :=
  ((c.spawn kind position).commit (.created c.nextId), c.nextId)

/-- How far below and right of its former host's anchor an evicted block is placed. -/
def evictionOffset : Float := 24

def evict (c : Canvas) (id host : BlockId) : Canvas :=
  let anchor := c.anchor host
  (c.detach id).makeFree id ⟨anchor.x + evictionOffset, anchor.y + evictionOffset⟩

def occupant? (c : Canvas) (id : BlockId) (slot : SlotId) : Option BlockId :=
  match (c.slot? slot).map Slot.content with
  | some (.value (some child) _) => if child == id then none else some child
  | _ => none

def roomy (c : Canvas) (id : BlockId) (slot : SlotId) : Canvas :=
  match c.occupant? id slot with
  | some child => c.evict child slot.host
  | none => c

def checkAttach (c : Canvas) (id : BlockId) (slot : SlotId) : Except Refusal Unit :=
  match c.kind? id with
  | none => .error (.unknownBlock id)
  | some kind =>
    match c.place slot with
    | .error e => .error e
    | .ok place =>
      if !canNest place (.block kind) then .error (.rejected kind place)
      else if c.isWithin slot.host id then .error (.cycle id)
      else .ok ()

/-- Nests a block into a slot. The previous child of a value slot is evicted and becomes free. -/
def attach (c : Canvas) (id : BlockId) (slot : SlotId) :
    Canvas × Except Refusal (Option BlockId) :=
  match c.checkAttach id slot with
  | .error e => (c, .error e)
  | .ok () =>
    let evicted := c.occupant? id slot
    let apart := (c.roomy id slot).detach id
    match apart.block? slot.host with
    | none => (apart, .error (.unknownSlot slot))
    | some _ => ((apart.link id slot).commit (.nested id slot evicted), .ok evicted)

def instantiateInto (c : Canvas) (kind : Kind) (slot : SlotId) :
    Canvas × Except Refusal (BlockId × Option BlockId) :=
  match c.place slot with
  | .error e => (c, .error e)
  | .ok place =>
    if !canNest place (.block kind) then (c, .error (.rejected kind place))
    else
      let position := ((c.block? slot.host).map Block.position).getD Point.origin
      let created := c.spawn kind position
      let queued := { created with events := created.events ++ [Event.created c.nextId] }
      match queued.attach c.nextId slot with
      | (after, .ok evicted) => (after, .ok (c.nextId, evicted))
      | (after, .error e) => (after, .error e)

def detachToFree (c : Canvas) (id : BlockId) (position : Point Float) :
    Canvas × Except Refusal Unit :=
  match c.block? id with
  | none => (c, .error (.unknownBlock id))
  | some b =>
    if !canNest .canvas (.block b.kind) then (c, .error (.rejected b.kind .canvas))
    else
      let moved :=
        if b.isFree then c.modify id fun b => { b with position }
        else (c.detach id).makeFree id position
      (moved.commit (.freed id), .ok ())

def isElse (c : Canvas) (id : BlockId) : Bool :=
  c.kind? id == some .elseBranch

def checkConnector (c : Canvas) (kind : Kind) (moving : Option BlockId) (head : BlockId) :
    Except Refusal Unit :=
  match c.block? head with
  | none => .error (.unknownBlock head)
  | some b =>
    if b.kind != .ifBranch then .error (.notAChain head)
    else
      match moving.filter (c.isWithin head) with
      | some id => .error (.cycle id)
      | none =>
        if kind == .elseBranch && b.chain.any (fun k => some k != moving && c.isElse k) then
          .error (.duplicateElse head)
        else .ok ()

def elseLast (c : Canvas) (connectors : List BlockId) : List BlockId :=
  connectors.filter (fun k => !c.isElse k) ++ connectors.filter c.isElse

/-- Appends an elif or else to the chain of an `if`; an else stays last. -/
def attachConnector (c : Canvas) (id head : BlockId) : Canvas × Except Refusal Unit :=
  match c.kind? id with
  | none => (c, .error (.unknownBlock id))
  | some kind =>
    if !kind.isConnector then (c, .error (.notAConnector id))
    else
      match c.checkConnector kind (some id) head with
      | .error e => (c, .error e)
      | .ok () =>
        let apart := c.detach id
        let chained := apart.modify head fun b => { b with chain := apart.elseLast (b.chain ++ [id]) }
        let owned := chained.modify id fun b => { b with owner := .chain head }
        (owned.commit (.connected id head), .ok ())

def discard (c : Canvas) (id : BlockId) : Canvas × Except Refusal (List BlockId) :=
  match c.block? id with
  | none => (c, .error (.unknownBlock id))
  | some _ =>
    let removed := c.subtree id
    let apart := c.detach id
    let remaining :=
      { apart with
        blocks := apart.blocks.filter fun b => !removed.contains b.id
        roots := apart.roots.filter fun r => r != id }
    (remaining.commit (.discarded removed), .ok removed)

def setLiteral (c : Canvas) (slot : SlotId) (text : String) : Canvas × Except Refusal Unit :=
  match (c.slot? slot).map Slot.content with
  | none => (c, .error (.unknownSlot slot))
  | some (.body _) => (c, .error (.notAValueSlot slot))
  | some (.value child _) =>
    ((c.modifySlot slot fun _ => .value child text).commit (.literalEdited slot), .ok ())

def pushLine (c : Canvas) (slot : SlotId) (text : String) : Canvas × Except Refusal Nat :=
  match c.place slot with
  | .error e => (c, .error e)
  | .ok place =>
    if !canNest place .typed then (c, .error (.notAValueSlot slot))
    else
      match (c.slot? slot).map Slot.content with
      | some (.body entries) =>
        ((c.modifySlot slot fun _ => .body (entries ++ [.line text])).commit (.literalEdited slot),
          .ok entries.length)
      | some (.value ..) => (c, .error (.notABody slot))
      | none => (c, .error (.unknownSlot slot))

/-- Removes a typed line from a body. Blocks are removed by `discard` only. -/
def removeLine (c : Canvas) (slot : SlotId) (index : Nat) : Canvas × Except Refusal String :=
  match (c.slot? slot).map Slot.content with
  | none => (c, .error (.unknownSlot slot))
  | some (.value ..) => (c, .error (.notABody slot))
  | some (.body entries) =>
    match entries[index]? with
    | some (.line text) =>
      ((c.modifySlot slot fun _ => .body (entries.eraseIdx index)).commit (.literalEdited slot),
        .ok text)
    | _ => (c, .error (.unknownEntry slot index))

def editFace (c : Canvas) (id : BlockId) (f : Face → Face) : Canvas × Except Refusal Unit :=
  match c.block? id with
  | none => (c, .error (.unknownBlock id))
  | some _ =>
    ((c.modify id fun b => { b with toFace := f b.toFace }).commit (.attributeEdited id), .ok ())

def setName (c : Canvas) (id : BlockId) (name : String) : Canvas × Except Refusal Unit :=
  c.editFace id fun face => { face with name }

def setOperator (c : Canvas) (id : BlockId) (op : Operator) : Canvas × Except Refusal Unit :=
  c.editFace id fun face => { face with operator := some op }

def setOverride (c : Canvas) (id : BlockId) (text : Option String) :
    Canvas × Except Refusal Unit :=
  c.editFace id fun face => { face with override := text }

end Canvas
end BlockCanvas
