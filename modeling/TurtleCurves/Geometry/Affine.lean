import TurtleCurves.Geometry.Point

namespace TurtleCurves

/-!
# Affine maps of the plane

* `Affine` — the map `(x, y) ↦ (a·x + c·y + e, b·x + d·y + f)`;
* `Affine.after` — composition;
* `Affine.scaleFactor` — the length of a mapped unit vector, for a map that keeps shapes.
-/

/-- The map `(x, y) ↦ (a·x + c·y + e, b·x + d·y + f)`. -/
structure Affine (α : Type) where
  a : α
  b : α
  c : α
  d : α
  e : α
  f : α
  deriving DecidableEq, Repr

namespace Affine

variable {α : Type}

/-! ### Building maps -/

/-- The map that moves nothing. -/
def identity [Arith α] : Affine α := ⟨1, 0, 0, 1, 0, 0⟩

/-- The shift by `(dx, dy)`. -/
def shift [Arith α] (dx dy : α) : Affine α := ⟨1, 0, 0, 1, dx, dy⟩

/-- The turn about the origin by an angle in radians. -/
def rotation [Scalar α] (angle : α) : Affine α :=
  let s := Scalar.sin angle
  let c := Scalar.cos angle
  ⟨c, s, -s, c, 0, 0⟩

/-- The scaling about the origin. -/
def scaling [Arith α] (factor : α) : Affine α := ⟨factor, 0, 0, factor, 0, 0⟩

/-- The map `inner` first, then `outer`. -/
def after [Add α] [Mul α] (outer inner : Affine α) : Affine α :=
  ⟨outer.a * inner.a + outer.c * inner.b,
   outer.b * inner.a + outer.d * inner.b,
   outer.a * inner.c + outer.c * inner.d,
   outer.b * inner.c + outer.d * inner.d,
   outer.a * inner.e + outer.c * inner.f + outer.e,
   outer.b * inner.e + outer.d * inner.f + outer.f⟩

/-! ### Using maps -/

/-- The image of a point. -/
def apply [Add α] [Mul α] (m : Affine α) (p : Point α) : Point α :=
  ⟨m.a * p.x + m.c * p.y + m.e, m.b * p.x + m.d * p.y + m.f⟩

/-- The length of a mapped unit vector, for a map that keeps shapes: the root of the
determinant's magnitude. -/
def scaleFactor [Scalar α] (m : Affine α) : α :=
  Scalar.sqrt (Arith.abs (m.a * m.d - m.b * m.c))

end Affine

end TurtleCurves
