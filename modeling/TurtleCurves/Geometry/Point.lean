import TurtleCurves.Scalar

namespace TurtleCurves

/-!
# Points

Points of the plane with the two operations that gestures need.
-/

/-- A point of the plane. -/
structure Point (α : Type) where
  x : α
  y : α
  deriving DecidableEq, Repr

namespace Point

variable {α : Type}

/-- The point `(0, 0)`. -/
def origin [Arith α] : Point α := ⟨0, 0⟩

/-- The point half way between two points. -/
def midpoint [Arith α] (p q : Point α) : Point α :=
  ⟨(p.x + q.x) / 2, (p.y + q.y) / 2⟩

/-- The distance of two points. -/
def distance [Scalar α] (p q : Point α) : α := Scalar.hypot (p.x - q.x) (p.y - q.y)

end Point

end TurtleCurves
