import TurtleCurves.Frame.Call

namespace TurtleCurves

/-!
# Painting on the screen

* `Area` — the part of the window that is painted on, in screen coordinates;
* `Shape` — what is painted;
* `Painting.shapes` — the shapes of a list of drawing calls.

A screen holds coordinates with less precision than curves are computed with: every number is
narrowed when it is handed over.
-/

/-- A part of the window that begins at its upper edge. -/
structure Area (α : Type) where
  left : α
  right : α
  bottom : α
  deriving DecidableEq, Repr

namespace Area

variable {α : Type} [Scalar α]

/-- The width of an area. -/
def width (a : Area α) : α := Scalar.narrow (a.right - a.left)

/-- The height of an area. -/
def height (a : Area α) : α := Scalar.narrow (a.bottom - (0 : α))

/-- A place of the window, seen from the corner of the area. -/
def toLocal (a : Area α) (p : Point α) : Point α :=
  ⟨Scalar.narrow (p.x - a.left), Scalar.narrow (p.y - (0 : α))⟩

/-- A place in the area, seen from the corner of the window. -/
def toWindow (a : Area α) (p : Point α) : Point α :=
  ⟨Scalar.narrow (a.left + Scalar.narrow p.x), Scalar.narrow ((0 : α) + Scalar.narrow p.y)⟩

/-- A place of the window is in the area, edges included. -/
def contains (a : Area α) (p : Point α) : Bool :=
  a.left ≤ p.x && p.x ≤ a.right && (0 : α) ≤ p.y && p.y ≤ a.bottom

end Area

/-- Something that is painted, in the coordinates of the window. -/
inductive Shape (α : Type) where
  | rectangle (area : Area α) (color : Rgb)
  | segment (start stop : Point α) (width : α) (color : Rgb)
  deriving DecidableEq, Repr

/-- A painting in progress. -/
structure Painting (α : Type) where
  area : Area α
  transform : Transform α
  stroke : Rgb
  strokeWidth : α
  /-- What was painted, the last shape first. -/
  painted : List (Shape α)

namespace Painting

variable {α : Type} [Scalar α]

/-- Nothing is painted yet. -/
def onto (area : Area α) : Painting α := ⟨area, Transform.initial, Rgb.black, 1, []⟩

/-- The width of a stroke on the screen, at least half a pixel. -/
def screenWidth (p : Painting α) : α :=
  Scalar.narrow (max (p.strokeWidth * p.transform.current.scaleFactor) 0.5)

/-- Where a point is shown in the window. -/
def place (p : Painting α) (q : Point α) : Point α := p.area.toWindow (p.transform.apply q)

/-- The shape of a call, if it paints. -/
def shape? (p : Painting α) : Call α → Option (Shape α)
  | .background c => some (.rectangle p.area c)
  | .line a b => some (.segment (p.place a) (p.place b) p.screenWidth p.stroke)
  | _ => none

/-- The painting after one call. -/
def perform (p : Painting α) (call : Call α) : Painting α :=
  let painted := (p.shape? call).toList ++ p.painted
  match call with
  | .color c => { p with stroke := c, painted := painted }
  | .width px => { p with strokeWidth := px, painted := painted }
  | _ => { p with transform := p.transform.follow call, painted := painted }

/-- The shapes of a list of calls, in the order in which they are painted. -/
def shapes (area : Area α) (calls : List (Call α)) : List (Shape α) :=
  (calls.foldl perform (onto area)).painted.reverse

end Painting

end TurtleCurves
