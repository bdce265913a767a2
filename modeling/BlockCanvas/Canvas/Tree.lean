import BlockCanvas.Canvas.Basic

/-!
Blocks as trees: a block together with all it owns. A canvas read as trees is its forest, and what is
drawn, written or generated is a function of the forest alone.
-/
namespace BlockCanvas

inductive Tree where
  | node (id : BlockId) (face : Face) (slots : List (Slot Tree)) (chain : List Tree)

namespace Tree

def id : Tree → BlockId
  | .node id _ _ _ => id

def face : Tree → Face
  | .node _ face _ _ => face

def kind (t : Tree) : Kind :=
  t.face.kind

def slots : Tree → List (Slot Tree)
  | .node _ _ slots _ => slots

def chain : Tree → List Tree
  | .node _ _ _ chain => chain

mutual
/-- The blocks of a tree: a block, then what its slots hold, then its chain. -/
def ids : Tree → List BlockId
  | .node id _ slots chain => id :: (slotIds slots ++ listIds chain)
def slotIds : List (Slot Tree) → List BlockId
  | [] => []
  | ⟨_, .value none _⟩ :: slots => slotIds slots
  | ⟨_, .value (some child) _⟩ :: slots => ids child ++ slotIds slots
  | ⟨_, .body entries⟩ :: slots => entryIds entries ++ slotIds slots
def entryIds : List (Entry Tree) → List BlockId
  | [] => []
  | .block t :: entries => ids t ++ entryIds entries
  | .line _ :: entries => entryIds entries
def listIds : List Tree → List BlockId
  | [] => []
  | t :: ts => ids t ++ listIds ts
end

end Tree

structure Root where
  position : Point Float
  tree : Tree

namespace Canvas

def grow (c : Canvas) : Nat → BlockId → Option Tree
  | 0, _ => none
  | n + 1, id => (c.block? id).map fun b =>
    .node b.id b.toFace (b.slots.map (Slot.filterMap (c.grow n))) (b.chain.filterMap (c.grow n))

/-- The tree below a block. No tree is deeper than the store is large. -/
def tree? (c : Canvas) (id : BlockId) : Option Tree :=
  c.grow c.size id

def root? (c : Canvas) (id : BlockId) : Option Root :=
  (c.block? id).bind fun b => (c.tree? id).map fun t => ⟨b.position, t⟩

def forest (c : Canvas) : List Root :=
  c.roots.filterMap c.root?

def subtree (c : Canvas) (id : BlockId) : List BlockId :=
  (c.tree? id).elim [] Tree.ids

def traverse (c : Canvas) : List BlockId :=
  c.roots.flatMap c.subtree

end Canvas
end BlockCanvas
