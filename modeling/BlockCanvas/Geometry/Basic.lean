/-!
Points and rectangles over any kind of number.
-/
namespace BlockCanvas

structure Point (α : Type) where
  x : α
  y : α
  deriving DecidableEq, Repr, Inhabited

structure Rect (α : Type) where
  x : α
  y : α
  width : α
  height : α
  deriving DecidableEq, Repr, Inhabited

namespace Rect
variable {α : Type}

def origin (r : Rect α) : Point α :=
  ⟨r.x, r.y⟩

/-- The border belongs to the rectangle. -/
def contains [Add α] [LE α] [DecidableLE α] (r : Rect α) (p : Point α) : Bool :=
  r.x ≤ p.x && p.x ≤ r.x + r.width && r.y ≤ p.y && p.y ≤ r.y + r.height

def center (r : Rect Float) : Point Float :=
  ⟨r.x + r.width / 2, r.y + r.height / 2⟩

end Rect

namespace Point

def origin : Point Float :=
  ⟨0, 0⟩

def distance (p q : Point Float) : Float :=
  let dx := p.x - q.x
  let dy := p.y - q.y
  (dx * dx + dy * dy).sqrt

end Point
end BlockCanvas
