import TurtleCurves.Window.Canvas
import TurtleCurves.Window.Controls

namespace TurtleCurves

/-!
# Frames of the window

A frame lets the run take its step, then the panel its input, then the canvas.

* `FrameInput` — what the window hears in one frame;
* `Window.frame` — the window after it.
-/

/-- What the window hears in one frame. -/
structure FrameInput (α : Type) where
  now : Moment
  /-- The present time, as it is written into settings texts. -/
  time : String
  edit : Option (Edit α)
  canvas : CanvasInput α

namespace Window

variable {α : Type} [Scalar α]

/-- The window after a frame of its panel. -/
def control (w : Window α) (input : FrameInput α) : Window α :=
  let w := w.tick input.now
  let w := match input.edit with
    | none => w
    | some e => w.edit input.now input.time e
  w.hold

/-- The window after a frame. -/
def frame (w : Window α) (area : Area α) (input : FrameInput α) : Window α :=
  (w.control input).canvas area input.canvas

end Window

end TurtleCurves
