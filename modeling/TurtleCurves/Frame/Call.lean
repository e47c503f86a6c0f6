import TurtleCurves.Color.Rgb
import TurtleCurves.Geometry.Transform

namespace TurtleCurves

/-!
# Drawing calls

A frame is a list of calls to a drawing surface; every surface is a fold over that list.

* `Call` — one call;
* `Transform.follow`, `Transform.followAll` — what a call, and a list of calls, does to the
  surface's transform stack.
-/

/-- One call to a drawing surface. -/
inductive Call (α : Type) where
  /-- Fill the whole surface. -/
  | background (color : Rgb)
  /-- Forget every transform. -/
  | reset
  | shift (dx dy : α)
  | rotate (angle : α)
  | scale (factor : α)
  /-- Keep the current transform. -/
  | push
  /-- Go back to the transform kept last. -/
  | pop
  /-- Draw from one point to another, in local coordinates. -/
  | line (start stop : Point α)
  /-- Draw in this colour from now on. -/
  | color (color : Rgb)
  /-- Draw with this width from now on. -/
  | width (px : α)
  deriving DecidableEq, Repr

variable {α : Type}

/-- What a call does to the transform stack of a surface. -/
def Transform.follow [Scalar α] (t : Transform α) : Call α → Transform α
  | .reset => Transform.initial
  | .shift dx dy => t.shift dx dy
  | .rotate angle => t.rotate angle
  | .scale factor => t.scale factor
  | .push => t.push
  | .pop => t.pop
  | .background _ | .line _ _ | .color _ | .width _ => t

/-- The transform stack after a list of calls. -/
def Transform.followAll [Scalar α] (t : Transform α) (calls : List (Call α)) : Transform α :=
  calls.foldl Transform.follow t

end TurtleCurves
