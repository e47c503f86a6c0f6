import TurtleCurves.Geometry.Point

namespace TurtleCurves

/-!
# Viewports

A viewport shows the canvas on the screen, moved and magnified about its middle:
`screen = middle + offset + scale · (canvas − middle)`.

* `Viewport` — the mapping, and what is known of a gesture in progress;
* `toScreen`, `toCanvas` — the mapping and its inverse;
* `zoom`, `wheel` — magnify about an anchor, which stays where it is;
* `panStart`, `panMove`, `panEnd` — drag with one pointer;
* `pinchStart`, `pinchMove`, `pinchEnd` — magnify with two fingers;
* `Viewport.Gesture`, `Viewport.perform` — the same operations as data.
-/

/-- A pointer that is held down. -/
structure Drag (α : Type) where
  /-- The pointer relative to the offset. -/
  grip : Point α
  /-- The pointer has moved, so that letting go is no tap. -/
  moved : Bool
  deriving DecidableEq, Repr

/-- What letting a pointer go amounts to. -/
inductive Release where
  /-- It was pressed and not moved. -/
  | tap
  /-- It was moved. -/
  | drag
  /-- None was held. -/
  | idle
  deriving DecidableEq, Repr

/-- How the canvas is shown, and what is known of a gesture in progress. -/
structure Viewport (α : Type) where
  scale : α
  offset : Point α
  width : α
  height : α
  held : Option (Drag α)
  /-- The distance of two fingers, zero when it is not known. -/
  span : α
  deriving DecidableEq, Repr

namespace Viewport

variable {α : Type}

/-! ### The mapping -/

/-- The smallest magnification. -/
def minScale [Arith α] : α := 0.05

/-- The largest magnification. -/
def maxScale [Arith α] : α := 100

/-- A canvas shown as it is. -/
def ofSize [Arith α] (width height : α) : Viewport α :=
  ⟨1, Point.origin, width, height, none, 0⟩

/-- The middle of the screen. -/
def center [Arith α] (v : Viewport α) : Point α := ⟨v.width / 2, v.height / 2⟩

/-- Where a canvas point is shown. -/
def toScreen [Arith α] (v : Viewport α) (p : Point α) : Point α :=
  let c := v.center
  ⟨c.x + v.offset.x + v.scale * (p.x - c.x), c.y + v.offset.y + v.scale * (p.y - c.y)⟩

/-- Which canvas point is shown at a place. -/
def toCanvas [Arith α] (v : Viewport α) (s : Point α) : Point α :=
  let c := v.center
  ⟨c.x + (s.x - c.x - v.offset.x) / v.scale, c.y + (s.y - c.y - v.offset.y) / v.scale⟩

/-- The same view of a canvas of another size. -/
def resize (v : Viewport α) (width height : α) : Viewport α :=
  { v with width := width, height := height }

/-- The canvas shown as it is; a gesture in progress is dropped. -/
def reset [Arith α] (v : Viewport α) : Viewport α := ofSize v.width v.height

/-- A pointer is held. -/
def isDragging (v : Viewport α) : Bool := v.held.isSome

/-! ### Magnifying -/

/-- Multiplies the scale, within its limits, and keeps what is under the anchor there. -/
def zoom [Arith α] (v : Viewport α) (anchor : Point α) (factor : α) : Viewport α :=
  let scale := Arith.clamp minScale maxScale (v.scale * factor)
  let c := v.center
  let px := anchor.x - c.x
  let py := anchor.y - c.y
  let ratio := scale / v.scale
  { v with
    offset := ⟨px - (px - v.offset.x) * ratio, py - (py - v.offset.y) * ratio⟩
    scale := scale }

/-- One notch of a wheel: in when it turns forward, out otherwise. -/
def wheel [Arith α] (v : Viewport α) (anchor : Point α) (delta : α) : Viewport α :=
  if Arith.isZero delta then v
  else v.zoom anchor (if (0 : α) < delta then 1.1 else 0.9)

/-! ### Dragging -/

/-- A pointer is pressed. -/
def panStart [Arith α] (v : Viewport α) (p : Point α) : Viewport α :=
  { v with held := some ⟨⟨p.x - v.offset.x, p.y - v.offset.y⟩, false⟩, span := 0 }

/-- A held pointer moves, and the canvas with it. -/
def panMove [Arith α] (v : Viewport α) (p : Point α) : Viewport α :=
  match v.held with
  | none => v
  | some d =>
    { v with
      offset := ⟨p.x - d.grip.x, p.y - d.grip.y⟩
      held := some { d with moved := true } }

/-- What letting go of the pointer would amount to now. -/
def release (v : Viewport α) : Release :=
  match v.held with
  | none => .idle
  | some d => if d.moved then .drag else .tap

/-- The pointer is let go. -/
def panEnd (v : Viewport α) : Release × Viewport α := (v.release, { v with held := none })

/-! ### Pinching -/

/-- A held pointer counts as moved. -/
def markMoved (v : Viewport α) : Viewport α :=
  { v with held := v.held.map fun d => { d with moved := true } }

/-- Two fingers are down. -/
def pinchStart [Scalar α] (v : Viewport α) (a b : Point α) : Viewport α :=
  { v.markMoved with span := a.distance b }

/-- Two fingers have moved: the change of their distance magnifies about their midpoint.  The
first sample of an unknown distance is only remembered. -/
def pinchMove [Scalar α] (v : Viewport α) (a b : Point α) : Viewport α :=
  let d := a.distance b
  let v := if (0 : α) < v.span then v.zoom (a.midpoint b) (d / v.span) else v
  { v with span := d }

/-- A pinch ends; a finger that stays goes on as a pointer that has moved. -/
def pinchEnd [Arith α] (v : Viewport α) (remaining : Option (Point α)) : Viewport α :=
  match remaining with
  | some p => (v.panStart p).markMoved
  | none => { v with held := none, span := 0 }

/-! ### Operations as data -/

/-- One operation on a viewport. -/
inductive Gesture (α : Type) where
  | zoom (anchor : Point α) (factor : α)
  | wheel (anchor : Point α) (delta : α)
  | panStart (p : Point α)
  | panMove (p : Point α)
  | panEnd
  | pinchStart (a b : Point α)
  | pinchMove (a b : Point α)
  | pinchEnd (remaining : Option (Point α))
  | resize (width height : α)
  | reset
  deriving DecidableEq, Repr

/-- The viewport after an operation. -/
def perform [Scalar α] (v : Viewport α) : Gesture α → Viewport α
  | .zoom anchor factor => v.zoom anchor factor
  | .wheel anchor delta => v.wheel anchor delta
  | .panStart p => v.panStart p
  | .panMove p => v.panMove p
  | .panEnd => v.panEnd.2
  | .pinchStart a b => v.pinchStart a b
  | .pinchMove a b => v.pinchMove a b
  | .pinchEnd remaining => v.pinchEnd remaining
  | .resize width height => v.resize width height
  | .reset => v.reset

/-- The viewport after a list of operations. -/
def performAll [Scalar α] (v : Viewport α) (gs : List (Gesture α)) : Viewport α :=
  gs.foldl perform v

end Viewport

end TurtleCurves
