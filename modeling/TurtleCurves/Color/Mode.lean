import TurtleCurves.Geometry.Bounds

namespace TurtleCurves

/-!
# Colouring modes

* `ColorMode` — what the colour of a stroke depends on;
* `PositionAxis` — along which line positions are measured, and
  `PositionAxis.parameter`, the position of a point in a box on a scale from `0` to `1`.
-/

/-! ### Modes -/

/-- What the colour of a stroke depends on. -/
inductive ColorMode where
  /-- On nothing. -/
  | flat
  /-- On how many strokes came before. -/
  | paletteGradient
  /-- On how many branches are open. -/
  | depth
  /-- On where the pen is put down. -/
  | position
  /-- On the letter. -/
  | perSymbol
  deriving DecidableEq, Repr, Inhabited

namespace ColorMode

/-- All modes in the order they are offered. -/
def all : List ColorMode := [flat, paletteGradient, depth, position, perSymbol]

/-- The name of a mode. -/
def name : ColorMode → String
  | flat => "flat"
  | paletteGradient => "palette-gradient"
  | depth => "depth"
  | position => "position"
  | perSymbol => "per-symbol"

/-- The mode of a name. -/
def ofName? (s : String) : Option ColorMode := all.find? fun m => m.name == s

end ColorMode

/-! ### Axes -/

/-- Along which line positions are measured. -/
inductive PositionAxis where
  | horizontal
  | vertical
  /-- Outward from the middle. -/
  | radial
  deriving DecidableEq, Repr, Inhabited

namespace PositionAxis

/-- All axes in the order they are offered. -/
def all : List PositionAxis := [horizontal, vertical, radial]

/-- The name of an axis. -/
def name : PositionAxis → String
  | horizontal => "horizontal"
  | vertical => "vertical"
  | radial => "radial"

/-- The axis of a name. -/
def ofName? (s : String) : Option PositionAxis := all.find? fun a => a.name == s

variable {α : Type} [Scalar α]

/-- The part of the way from `lo` to `hi` at which `x` lies; no way at all counts as its
start. -/
def fraction (lo hi x : α) : α :=
  if lo < hi then (x - lo) / (hi - lo) else 0

/-- The distance from the middle of a box to its farther corner, at least a thousandth. -/
def reach (b : Bounds α) : α :=
  let c := b.center
  max (max (Scalar.hypot (b.maxX - c.x) (b.maxY - c.y))
    (Scalar.hypot (b.minX - c.x) (b.minY - c.y))) (0.001 : α)

/-- The position of a point in a box, from `0` to `1`. -/
def parameter (axis : PositionAxis) (p : Point α) (b : Bounds α) : α :=
  match axis with
  | horizontal => fraction b.minX b.maxX p.x
  | vertical => fraction b.minY b.maxY p.y
  | radial =>
    let c := b.center
    min (Scalar.hypot (p.x - c.x) (p.y - c.y) / reach b) 1

end PositionAxis

end TurtleCurves
