import BlockCanvas.Canvas.Tree

/-!
Where blocks and slots are drawn. A block opens an inline row for its value slots; a body closes the
row, is indented below it and stacks its entries; connectors hang below their `if`. The arithmetic is
written over any number type, so that the layout of whole positions can be read over the integers.
-/
namespace BlockCanvas

structure Metrics (α : Type) where
  rowHeight : α
  labelWidth : α
  valueWidth : α
  inset : α
  gap : α
  indent : α
  emptyBodyHeight : α
  minBlockWidth : α

def Metrics.standard {α : Type} (ofNat : Nat → α) : Metrics α where
  rowHeight := ofNat 32
  labelWidth := ofNat 64
  valueWidth := ofNat 72
  inset := ofNat 4
  gap := ofNat 6
  indent := ofNat 24
  emptyBodyHeight := ofNat 24
  minBlockWidth := ofNat 160

structure SlotBox (α : Type) where
  slot : SlotId
  shape : Shape
  rect : Rect α
  depth : Nat

structure Geometry (α : Type) where
  blocks : List (BlockId × Rect α) := []
  slots : List (SlotBox α) := []

structure Row (α : Type) where
  cursor : α
  top : α
  height : α

structure Pen (α : Type) where
  y : α
  width : α
  row : Option (Row α)

namespace Geometry
variable {α : Type}

instance : Append (Geometry α) where
  append g h := ⟨g.blocks ++ h.blocks, g.slots ++ h.slots⟩

def ofBlock (id : BlockId) (rect : Rect α) : Geometry α :=
  ⟨[(id, rect)], []⟩

def ofSlot (box : SlotBox α) : Geometry α :=
  ⟨[], [box]⟩

section
variable [Add α] [Sub α] [LE α] [DecidableLE α]

/-- The larger of two numbers; something that is not a number gives way to one that is. -/
def larger (a b : α) : α :=
  if b ≤ a then a else if b ≤ b then b else a

def bodyTop (m : Metrics α) (index : Nat) (pen : Pen α) : α :=
  match pen.row with
  | some row => pen.y + row.height
  | none => if index = 0 then pen.y + m.rowHeight else pen.y

def bottom (m : Metrics α) (slots : List (Slot Tree)) (pen : Pen α) : α :=
  match pen.row with
  | some row => pen.y + row.height
  | none => if slots.isEmpty then pen.y + m.rowHeight else pen.y

def openRow (m : Metrics α) (origin : Point α) (pen : Pen α) : Row α :=
  pen.row.getD ⟨origin.x + m.labelWidth, pen.y, m.rowHeight⟩

def pastValue (m : Metrics α) (origin : Point α) (pen : Pen α) (row : Row α) (rect : Rect α) :
    Pen α :=
  let next := row.cursor + rect.width + m.gap
  { y := pen.y
    width := larger pen.width (next - origin.x)
    row := some ⟨next, row.top, larger row.height (rect.height + (m.inset + m.inset))⟩ }

mutual
/-- Draws a block, all its slots, and its chain; the rectangle is that of the whole group. -/
def ofTree (m : Metrics α) (origin : Point α) (depth : Nat) : Tree → Rect α × Geometry α
  | .node id _ slots chain =>
    let start : Pen α := ⟨origin.y, m.minBlockWidth, none⟩
    let (pen, inner) := ofSlots m id origin depth 0 start slots
    let own : Rect α := ⟨origin.x, origin.y, pen.width, bottom m slots pen - origin.y⟩
    let (group, below) := ofChain m origin depth own chain
    (group, inner ++ ofBlock id own ++ below)
def ofSlots (m : Metrics α) (host : BlockId) (origin : Point α) (depth index : Nat) (pen : Pen α) :
    List (Slot Tree) → Pen α × Geometry α
  | [] => (pen, {})
  | ⟨_, .value none _⟩ :: slots =>
    let row := openRow m origin pen
    let rect : Rect α :=
      ⟨row.cursor, row.top + m.inset, m.valueWidth, m.rowHeight - (m.inset + m.inset)⟩
    let (pen, rest) :=
      ofSlots m host origin depth (index + 1) (pastValue m origin pen row rect) slots
    (pen, ofSlot ⟨⟨host, index⟩, .value, rect, depth⟩ ++ rest)
  | ⟨_, .value (some child) _⟩ :: slots =>
    let row := openRow m origin pen
    let (rect, inner) := ofTree m ⟨row.cursor, row.top + m.inset⟩ (depth + 1) child
    let (pen, rest) :=
      ofSlots m host origin depth (index + 1) (pastValue m origin pen row rect) slots
    (pen, inner ++ ofSlot ⟨⟨host, index⟩, .value, rect, depth⟩ ++ rest)
  | ⟨_, .body entries⟩ :: slots =>
    let x := origin.x + m.indent
    let top := bodyTop m index pen
    let (y, bodyWidth, inner) :=
      ofEntries m x depth top (m.minBlockWidth - m.indent) entries
    let height := larger (y - top) m.emptyBodyHeight
    let past : Pen α := ⟨top + height, larger pen.width (m.indent + bodyWidth), none⟩
    let (pen, rest) := ofSlots m host origin depth (index + 1) past slots
    (pen, inner ++ ofSlot ⟨⟨host, index⟩, .statement, ⟨x, top, bodyWidth, height⟩, depth⟩ ++ rest)
def ofEntries (m : Metrics α) (x : α) (depth : Nat) (y width : α) :
    List (Entry Tree) → α × α × Geometry α
  | [] => (y, width, {})
  | .block t :: entries =>
    let (rect, inner) := ofTree m ⟨x, y⟩ (depth + 1) t
    let (y, width, rest) := ofEntries m x depth (y + rect.height) (larger width rect.width) entries
    (y, width, inner ++ rest)
  | .line _ :: entries => ofEntries m x depth (y + m.rowHeight) (larger width m.valueWidth) entries
def ofChain (m : Metrics α) (origin : Point α) (depth : Nat) (group : Rect α) :
    List Tree → Rect α × Geometry α
  | [] => (group, {})
  | t :: ts =>
    let (rect, inner) := ofTree m ⟨origin.x, group.y + group.height⟩ depth t
    let grown : Rect α :=
      ⟨group.x, group.y, larger group.width rect.width, group.height + rect.height⟩
    let (group, rest) := ofChain m origin depth grown ts
    (group, inner ++ rest)
end

def ofForest (m : Metrics α) : List (Point α × Tree) → Geometry α
  | [] => {}
  | (origin, t) :: rest => (ofTree m origin 0 t).2 ++ ofForest m rest

/-- The topmost slot under a point: of the deepest ones, the last in paint order. -/
def slotAt? (g : Geometry α) (p : Point α) (skip : SlotId → Bool) : Option SlotId :=
  let better (best : Option (SlotBox α)) (box : SlotBox α) : Option (SlotBox α) :=
    if !box.rect.contains p || skip box.slot then best
    else match best with
      | none => some box
      | some b => if b.depth ≤ box.depth then some box else best
  (g.slots.foldl better none).map SlotBox.slot

end

def blockRect? (g : Geometry α) (id : BlockId) : Option (Rect α) :=
  g.blocks.lookup id

def slotRect? (g : Geometry α) (slot : SlotId) : Option (Rect α) :=
  (g.slots.find? fun box => box.slot == slot).map SlotBox.rect

end Geometry

def Canvas.geometry (c : Canvas) : Geometry Float :=
  Geometry.ofForest (.standard Float.ofNat) (c.forest.map fun r => (r.position, r.tree))

end BlockCanvas
