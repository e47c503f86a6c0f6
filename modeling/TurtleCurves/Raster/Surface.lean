import TurtleCurves.Frame.Call
import TurtleCurves.Raster.Capsule

namespace TurtleCurves

/-!
# Painting frames

`Raster` is a drawing surface that paints into an image; `Raster.run` performs a list of calls.
-/

/-- A drawing surface that paints into an image. -/
structure Raster (α : Type) where
  image : Image
  transform : Transform α
  stroke : Rgb
  strokeWidth : α

namespace Raster

variable {α : Type} [Scalar α]

/-- A new surface: transparent, black strokes one pixel wide. -/
def ofSize (width height : Nat) : Raster α :=
  ⟨Image.clear width height, Transform.initial, Rgb.black, 1⟩

/-- Half the width of a stroke on the screen, at least half a pixel. -/
def radius (r : Raster α) : α :=
  max (r.strokeWidth * r.transform.current.scaleFactor / 2) 0.5

/-- The interval between two coordinates stays farther than `radius` from `0 … extent`. -/
def misses (a b extent radius : α) : Bool :=
  max a b < (0 : α) - radius || extent + radius < min a b

/-- The thick line that a call draws. -/
def capsule (r : Raster α) (p q : Point α) : Capsule α :=
  ⟨r.transform.apply p, r.transform.apply q, r.radius⟩

/-- The pixels that a line sets; a line that cannot reach the image sets none. -/
def lineSpans (r : Raster α) (p q : Point α) : List Span :=
  let k := r.capsule p q
  if misses k.start.x k.stop.x (Arith.ofNat r.image.width) k.radius ||
      misses k.start.y k.stop.y (Arith.ofNat r.image.height) k.radius then []
  else k.spans r.image.width r.image.height

/-- The surface after a line. -/
def drawLine (r : Raster α) (p q : Point α) : Raster α :=
  let spans := r.lineSpans p q
  let ⟨image, transform, stroke, strokeWidth⟩ := r
  ⟨image.fillSpans stroke spans, transform, stroke, strokeWidth⟩

/-- The surface after one call. -/
def perform (r : Raster α) : Call α → Raster α
  | .background c =>
    let ⟨image, transform, stroke, strokeWidth⟩ := r
    ⟨image.fill c, transform, stroke, strokeWidth⟩
  | .line p q => r.drawLine p q
  | .color c => { r with stroke := c }
  | .width px => { r with strokeWidth := px }
  | call => { r with transform := r.transform.follow call }

/-- The surface after a list of calls. -/
def run (r : Raster α) (calls : List (Call α)) : Raster α := calls.foldl perform r

end Raster

end TurtleCurves
