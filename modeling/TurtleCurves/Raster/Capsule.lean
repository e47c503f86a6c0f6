import TurtleCurves.Geometry.Point
import TurtleCurves.Raster.Image

namespace TurtleCurves

/-!
# Thick lines with round ends

A thick line covers the points within a radius of a segment: two discs and the body between
them.  On one row of pixels these are intervals, and since the whole shape is convex their
common hull is exact.

* `Extent` — an interval of a row, possibly the whole row;
* `discExtent`, `linearExtent` — where a disc and a strip meet a row;
* `Capsule.extent?` — where the shape meets a row;
* `Capsule.spans` — the pixels of an image whose middle lies in the shape.
-/

/-! ### Intervals of a row -/

/-- The points of a row that satisfy a condition. -/
inductive Extent (α : Type) where
  /-- All of them. -/
  | whole
  /-- Those from `lo` to `hi`. -/
  | between (lo hi : α)
  deriving DecidableEq, Repr

namespace Extent

variable {α : Type} [Arith α]

/-- The points in both, if there are any. -/
def meet? : Extent α → Extent α → Option (Extent α)
  | .whole, e => some e
  | e, .whole => some e
  | .between a b, .between c d =>
    let lo := max a c
    let hi := min b d
    if lo ≤ hi then some (.between lo hi) else none

/-- The least interval that holds both. -/
def join : Extent α → Extent α → Extent α
  | .between a b, .between c d => .between (min a c) (max b d)
  | _, _ => .whole

/-- The least interval that holds what there is of both. -/
def join? : Option (Extent α) → Option (Extent α) → Option (Extent α)
  | some d, some e => some (d.join e)
  | some d, none => some d
  | none, e => e

/-- The points moved along the row. -/
def shift (dx : α) : Extent α → Extent α
  | .whole => .whole
  | .between lo hi => .between (lo + dx) (hi + dx)

/-- The columns of an image of the given width whose middles belong to the interval. -/
def columns (width : Nat) : Extent α → Int × Int
  | .whole => (0, Int.ofNat width - 1)
  | .between lo hi =>
    (Arith.truncate (max (Arith.ceil (lo - 0.5)) 0),
     Arith.truncate (min (Arith.floor (hi - 0.5)) (Arith.ofNat width - 1)))

end Extent

/-- Where a disc meets the row at height `y`. -/
def discExtent {α : Type} [Scalar α] (center : Point α) (radius y : α) : Option (Extent α) :=
  let dy := y - center.y
  let rest := radius * radius - dy * dy
  if rest < 0 then none
  else
    let half := Scalar.sqrt rest
    some (.between (center.x - half) (center.x + half))

/-- The points `x` with `lo ≤ a · x + b ≤ hi`; a slope below `10⁻¹²` counts as none. -/
def linearExtent {α : Type} [Arith α] (a b lo hi : α) : Option (Extent α) :=
  if Arith.abs a < 1e-12 then
    if lo ≤ b ∧ b ≤ hi then some .whole else none
  else
    let x := (lo - b) / a
    let y := (hi - b) / a
    some (.between (min x y) (max x y))

/-! ### The shape -/

/-- The points within `radius` of a segment. -/
structure Capsule (α : Type) where
  start : Point α
  stop : Point α
  radius : α
  deriving DecidableEq, Repr

namespace Capsule

variable {α : Type} [Scalar α]

/-- A segment that is not longer than `2⁻⁵²` is a point. -/
def shortest : α := 1 / 4503599627370496

/-- Where the body between the two discs meets the row at height `y`: the distance from the
line and the place along it are both linear in the column. -/
def bodyExtent (k : Capsule α) (y : α) : Option (Extent α) :=
  let dx := k.stop.x - k.start.x
  let dy := k.stop.y - k.start.y
  let len := Scalar.hypot dx dy
  if shortest < len then
    let ux := dx / len
    let uy := dy / len
    let qy := y - k.start.y
    match linearExtent (-uy) (ux * qy) (-k.radius) k.radius,
        linearExtent ux (uy * qy) 0 len with
    | some across, some along => (across.meet? along).map (Extent.shift k.start.x)
    | _, _ => none
  else none

/-- Where the shape meets the row at height `y`. -/
def extent? (k : Capsule α) (y : α) : Option (Extent α) :=
  Extent.join? (Extent.join? (discExtent k.start k.radius y) (discExtent k.stop k.radius y))
    (k.bodyExtent y)

/-- The rows of an image of the given height that the shape may reach. -/
def rows (k : Capsule α) (height : Nat) : Int × Int :=
  (Arith.truncate (max (Arith.floor (min k.start.y k.stop.y - k.radius)) 0),
   Arith.truncate (min (Arith.ceil (max k.start.y k.stop.y + k.radius)) (Arith.ofNat height - 1)))

/-- The pixels of one row whose middle lies in the shape. -/
def span? (k : Capsule α) (width : Nat) (row : Int) : Option Span :=
  (k.extent? (Arith.ofNat row.toNat + 0.5)).map fun e =>
    let (first, last) := e.columns width
    ⟨row, first, last⟩

/-- The whole numbers from `lo` to `hi`. -/
def range (lo hi : Int) : List Int :=
  (List.range (hi + 1 - lo).toNat).map fun i => lo + Int.ofNat i

/-- The pixels of an image whose middle lies in the shape, row by row. -/
def spans (k : Capsule α) (width height : Nat) : List Span :=
  let (first, last) := k.rows height
  (range first last).filterMap (k.span? width)

end Capsule

end TurtleCurves
