import BlockCanvas.Document.Outline

/-!
Building a canvas from a document. Blocks are created in the order the document lists them, by the
same edits as any others, so that a document can hold nothing that could not be dragged together.
-/
namespace BlockCanvas.Document

def demand {α : Type} : Canvas × Except Refusal α → Except DocumentError (Canvas × α)
  | (c, .ok a) => .ok (c, a)
  | (_, .error e) => .error (.refused e)

def caption (c : Canvas) (id : BlockId) (given : Caption) : Except DocumentError Canvas := do
  let c ← match given.name with
    | some name => (demand (c.setName id name)).map Prod.fst
    | none => .ok c
  let c ← match given.operator with
    | some op => (demand (c.setOperator id op)).map Prod.fst
    | none => .ok c
  match given.override with
  | some text => (demand (c.setOverride id (some text))).map Prod.fst
  | none => .ok c

def slotFor (c : Canvas) (id : BlockId) (kind : Kind) (name : String) :
    Except DocumentError (SlotId × Shape) :=
  match c.slotNamed? id name with
  | none => .error (.noSuchSlot kind name)
  | some slot =>
    match c.slot? slot with
    | none => .error (.noSuchSlot kind name)
    | some s => .ok (slot, s.shape)

mutual
def fill (c : Canvas) (id : BlockId) : Outline → Except DocumentError Canvas
  | .node given slots chain => do
    let c ← caption c id given
    let c ← fillSlots c id given.kind slots
    fillChain c id given.position chain
def fillSlots (c : Canvas) (id : BlockId) (kind : Kind) :
    List (Slot Outline) → Except DocumentError Canvas
  | [] => .ok c
  | ⟨name, .value none literal⟩ :: slots => do
    let (slot, shape) ← slotFor c id kind name
    match shape with
    | .value =>
      let (c, _) ← demand (c.setLiteral slot literal)
      fillSlots c id kind slots
    | .statement =>
      if literal.isEmpty then fillSlots c id kind slots else .error (.wrongShape name kind)
  | ⟨name, .value (some child) literal⟩ :: slots => do
    let (slot, shape) ← slotFor c id kind name
    match shape with
    | .value =>
      let (c, _) ← demand (c.setLiteral slot literal)
      let (c, childId, _) ← demand (c.instantiateInto child.kind slot)
      let c ← fill c childId child
      fillSlots c id kind slots
    | .statement => .error (.wrongShape name kind)
  | ⟨name, .body entries⟩ :: slots => do
    let (slot, shape) ← slotFor c id kind name
    match shape with
    | .statement =>
      let c ← fillBody c slot entries
      fillSlots c id kind slots
    | .value => .error (.wrongShape name kind)
def fillBody (c : Canvas) (slot : SlotId) : List (Entry Outline) → Except DocumentError Canvas
  | [] => .ok c
  | .block child :: entries => do
    let (c, childId, _) ← demand (c.instantiateInto child.kind slot)
    let c ← fill c childId child
    fillBody c slot entries
  | .line text :: entries => do
    let (c, _) ← demand (c.pushLine slot text)
    fillBody c slot entries
def fillChain (c : Canvas) (id : BlockId) (position : Point Float) :
    List Outline → Except DocumentError Canvas
  | [] => .ok c
  | connector :: rest => do
    if !connector.kind.isConnector then .error (.notChainable connector.kind)
    else
      let (c, connectorId) := c.instantiate connector.kind position
      let (c, _) ← demand (c.attachConnector connectorId id)
      let c ← fill c connectorId connector
      fillChain c id position rest
end

def placeAll (c : Canvas) : List Outline → Except DocumentError Canvas
  | [] => .ok c
  | block :: blocks => do
    if !block.kind.isStatement then .error (.notOnCanvas block.kind)
    else
      let (c, id) := c.instantiate block.kind block.caption.position
      let c ← fill c id block
      placeAll c blocks

/-- The canvas of a document. What was done to build it leaves no events. -/
def build (d : Document) : Except DocumentError Canvas := do
  let c := match d.bounds with
    | some bounds => Canvas.withBounds bounds
    | none => Canvas.empty
  let c ← placeAll { c with discardZone := d.discardZone } d.blocks
  return c.drainEvents.2

end BlockCanvas.Document
