import TurtleCurves.Geometry.Point

namespace TurtleCurves

/-!
# Bounding boxes

* `Bounds` — an axis-parallel box;
* `Bounds.enclose` — the box grown to hold a point;
* `Bounds.hull` — the box of a list of points, grown from a starting box.
-/

/-- An axis-parallel box. -/
structure Bounds (α : Type) where
  minX : α
  maxX : α
  minY : α
  maxY : α
  deriving DecidableEq, Repr

namespace Bounds

variable {α : Type}

/-- The box that holds the origin only. -/
def atOrigin [Arith α] : Bounds α := ⟨0, 0, 0, 0⟩

/-- The box grown to hold `p`. -/
def enclose [Min α] [Max α] (b : Bounds α) (p : Point α) : Bounds α :=
  ⟨min b.minX p.x, max b.maxX p.x, min b.minY p.y, max b.maxY p.y⟩

/-- The box grown to hold every point of a list. -/
def hull [Min α] [Max α] (b : Bounds α) (ps : List (Point α)) : Bounds α :=
  ps.foldl enclose b

theorem hull_append [Min α] [Max α] (b : Bounds α) (ps qs : List (Point α)) :
    b.hull (ps ++ qs) = (b.hull ps).hull qs := List.foldl_append ..

/-- The extent from left to right. -/
def width [Sub α] (b : Bounds α) : α := b.maxX - b.minX

/-- The extent from top to bottom. -/
def height [Sub α] (b : Bounds α) : α := b.maxY - b.minY

/-- The middle of the box. -/
def center [Arith α] (b : Bounds α) : Point α :=
  ⟨(b.minX + b.maxX) / 2, (b.minY + b.maxY) / 2⟩

end Bounds

end TurtleCurves
