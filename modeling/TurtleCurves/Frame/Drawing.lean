import TurtleCurves.Color.Source
import TurtleCurves.Frame.Call
import TurtleCurves.Grammar.Derivation
import TurtleCurves.View.Viewport

namespace TurtleCurves

/-!
# Drawing a frame

* `Frame.placement` — the transforms of the view and of the drawing's start;
* `Frame.callsOf` — the calls of one turtle action;
* `Frame.draw` — a whole frame: background, placement, strokes;
* `Frame.measured` — the derivation after a frame, with what was measured for it.

The turtle's pose is never handed to the surface: a stroke is drawn from the local origin along
the local axis, and the surface's own transforms follow the walk.
-/

namespace Frame

variable {α : Type} [Scalar α]

/-- The transforms of a view, and of where and how a drawing starts. -/
def placement (v : Viewport α) (g : Grammar α) : List (Call α) :=
  [.reset,
   .shift (v.width / 2 + v.offset.x) (v.height / 2 + v.offset.y),
   .scale v.scale,
   .shift (-v.width / 2) (-v.height / 2),
   .shift (v.width * g.origin.x) (v.height * g.origin.y),
   .rotate (Scalar.radians g.startAngle)]

/-- What may be asked about a stroke when its colour is chosen. -/
def contextOf (total : Nat) (s : Stroke α) : ColorContext α :=
  ⟨s.index, total, s.depth, s.start, s.symbol⟩

/-- The calls of one action.  A flat drawing has its colour already, in every other mode each
stroke chooses its own. -/
def callsOf (colors : ColorSource α) (total : Nat) (length : α) : Action α → List (Call α)
  | .draw s =>
    let strokeCalls : List (Call α) := [.line Point.origin ⟨length, 0⟩, .shift length 0]
    if colors.mode = .flat then strokeCalls
    else .color (colors.resolve (contextOf total s)) :: strokeCalls
  | .turn degrees => [.rotate (Scalar.radians degrees)]
  | .push => [.push]
  | .pop => [.pop]

/-- The number of strokes that colours are spread over; a flat drawing does not ask for it. -/
def totalFor (d : Derivation α) (mode : ColorMode) : Nat :=
  if mode = .flat then 1 else d.segmentCount

/-- The colours of a frame: positions are measured in the drawing's own box. -/
def colorsFor (d : Derivation α) (colors : ColorSource α) : ColorSource α :=
  { colors with bounds := if colors.mode = .position then some d.bounds else none }

/-- The calls before the first stroke. -/
def opening (d : Derivation α) (v : Viewport α) (colors : ColorSource α) (background : Rgb)
    (strokeWidth : α) : List (Call α) :=
  .background background :: placement v d.grammar ++
    .width strokeWidth :: (if colors.mode = .flat then [.color (colors.palette.get 0)] else [])

/-- One frame of a derivation. -/
def draw (d : Derivation α) (v : Viewport α) (colors : ColorSource α) (background : Rgb)
    (strokeWidth : α) : List (Call α) :=
  let source := colorsFor d colors
  let total := totalFor d colors.mode
  opening d v colors background strokeWidth ++
    (walk d.grammar.gait d.sentence).1.flatMap (callsOf source total d.grammar.length)

/-- The derivation after a frame: a drawing that is not flat has counted the strokes, and one that
colours by position has measured the box. -/
def measured (d : Derivation α) (mode : ColorMode) : Derivation α :=
  let counted := if mode = .flat then d else d.noteSegments
  if mode = .position then counted.noteBounds else counted

end Frame

end TurtleCurves
