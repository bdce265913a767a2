import BlockCanvas.Canvas.Edit
import BlockCanvas.Geometry.Layout

/-!
Dragging: what is in the hand, and what a drop does. A drop outside the canvas is abandoned, one on
the discard zone discards; a connector joins the nearest `if`, any other block goes into the topmost
slot under the pointer if it fits there, and what finds no place is placed free.
-/
namespace BlockCanvas

inductive Transfer where
  | existing (id : BlockId)
  | template (kind : Kind)
  deriving DecidableEq, Repr

inductive Outcome where
  | nested (block : BlockId) (slot : SlotId) (evicted : Option BlockId)
  | connected (block : BlockId) (head : BlockId)
  | freed (block : BlockId) (position : Point Float)
  | discarded (blocks : List BlockId)
  | abandoned
  | rejected (refusal : Refusal)

namespace Outcome

def isCommitted : Outcome → Bool
  | .abandoned | .rejected _ => false
  | _ => true

def notice? : Outcome → Option String
  | .rejected refusal => some refusal.message
  | _ => none

end Outcome

/-- The `if` whose center is closest to a point; of equally close ones the first in preorder. The
subtree that is being moved offers no chain. -/
def Canvas.nearestChain? (c : Canvas) (g : Geometry Float) (p : Point Float)
    (moving : Option BlockId) : Option BlockId :=
  let candidates := c.traverse.filterMap fun id =>
    if c.kind? id != some .ifBranch || moving.any (c.isWithin id) then none
    else (g.blockRect? id).map fun rect => (id, rect.center.distance p)
  let closer (best : Option (BlockId × Float)) (next : BlockId × Float) :
      Option (BlockId × Float) :=
    match best with
    | none => some next
    | some b => if next.2 < b.2 then some next else best
  (candidates.foldl closer none).map Prod.fst

structure Hand where
  carried : Option Transfer := none

namespace Hand

def empty : Hand :=
  {}

def take (_ : Hand) (t : Transfer) : Hand :=
  ⟨some t⟩

end Hand

namespace Drag

def nest (c : Canvas) (kind : Kind) (moving : Option BlockId) (slot : SlotId) :
    Canvas × Outcome :=
  match moving with
  | some id =>
    match c.attach id slot with
    | (c, .ok evicted) => (c, .nested id slot evicted)
    | (c, .error e) => (c, .rejected e)
  | none =>
    match c.instantiateInto kind slot with
    | (c, .ok (id, evicted)) => (c, .nested id slot evicted)
    | (c, .error e) => (c, .rejected e)

def connect (c : Canvas) (kind : Kind) (moving : Option BlockId) (head : BlockId) :
    Canvas × Outcome :=
  match c.checkConnector kind moving head with
  | .error e => (c, .rejected e)
  | .ok () =>
    let (c, id) := match moving with
      | some id => (c, id)
      | none => c.instantiate kind (((c.block? head).map Block.position).getD Point.origin)
    match c.attachConnector id head with
    | (c, .ok ()) => (c, .connected id head)
    | (c, .error e) => (c, .rejected e)

def placeFree (c : Canvas) (kind : Kind) (moving : Option BlockId) (p : Point Float) :
    Canvas × Outcome :=
  if !canNest .canvas (.block kind) then (c, .rejected (.rejected kind .canvas))
  else
    match moving with
    | some id =>
      match c.detachToFree id p with
      | (c, .ok ()) => (c, .freed id p)
      | (c, .error e) => (c, .rejected e)
    | none =>
      let (c, id) := c.instantiate kind p
      (c, .freed id p)

def discard (c : Canvas) (id : BlockId) : Canvas × Outcome :=
  match c.discard id with
  | (c, .ok removed) => (c, .discarded removed)
  | (c, .error e) => (c, .rejected e)

def settle (c : Canvas) (kind : Kind) (moving : Option BlockId) (p : Point Float) :
    Canvas × Outcome :=
  let g := c.geometry
  if kind.isConnector then
    match c.nearestChain? g p moving with
    | some head => connect c kind moving head
    | none => placeFree c kind moving p
  else
    match g.slotAt? p fun slot => moving.any (c.isWithin slot.host) with
    | some slot =>
      match c.place slot with
      | .ok place =>
        if canNest place (.block kind) then nest c kind moving slot else placeFree c kind moving p
      | .error _ => placeFree c kind moving p
    | none => placeFree c kind moving p

def drop (c : Canvas) (carried : Option Transfer) (p : Point Float) : Canvas × Outcome :=
  match carried with
  | none => (c, .rejected .nothingDragged)
  | some (.template kind) =>
    if !c.bounds.contains p then (c, .abandoned)
    else if c.discardZone.any fun zone => zone.contains p then (c, .abandoned)
    else settle c kind none p
  | some (.existing id) =>
    match c.kind? id with
    | none => (c, .rejected (.unknownBlock id))
    | some kind =>
      if !c.bounds.contains p then (c, .abandoned)
      else if c.discardZone.any fun zone => zone.contains p then discard c id
      else settle c kind (some id) p

/-- Double activation lifts a block out of what owns it and leaves it where it is drawn. -/
def activate (c : Canvas) (id : BlockId) : Canvas × Outcome :=
  match c.block? id with
  | none => (c, .rejected (.unknownBlock id))
  | some b =>
    if b.isFree then (c, .abandoned)
    else
      let position := ((c.geometry.blockRect? id).map Rect.origin).getD (c.anchor id)
      match c.detachToFree id position with
      | (c, .ok ()) => (c, .freed id position)
      | (c, .error e) => (c, .rejected e)

def attachConnector (c : Canvas) (id : BlockId) : Canvas × Outcome :=
  match c.block? id with
  | none => (c, .rejected (.unknownBlock id))
  | some b =>
    if !b.kind.isConnector then (c, .rejected (.notAConnector id))
    else
      let g := c.geometry
      let center := ((g.blockRect? id).map Rect.center).getD b.position
      match c.nearestChain? g center (some id) with
      | some head => connect c b.kind (some id) head
      | none => (c, .abandoned)

end Drag

namespace Hand

/-- Lets go over a point. Whatever comes of it, the hand is empty afterwards. -/
def drop (h : Hand) (c : Canvas) (p : Point Float) : Hand × Canvas × Outcome :=
  (empty, Drag.drop c h.carried p)

def activate (_ : Hand) (c : Canvas) (id : BlockId) : Hand × Canvas × Outcome :=
  (empty, Drag.activate c id)

def discard (_ : Hand) (c : Canvas) (id : BlockId) : Hand × Canvas × Outcome :=
  (empty, Drag.discard c id)

def attachConnector (_ : Hand) (c : Canvas) (id : BlockId) : Hand × Canvas × Outcome :=
  (empty, Drag.attachConnector c id)

end Hand
end BlockCanvas
