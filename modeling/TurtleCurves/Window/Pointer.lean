import TurtleCurves.Geometry.Point

namespace TurtleCurves

/-!
# The pointer

The pointer is looked at once a frame.  What is heard of it in between is folded into one
`Sample`: where it is, whether its first button is down, and what has changed.

* `PointerEvent` — what is heard of the pointer and its wheel;
* `Pointer` — what is known of it between two frames;
* `Sample`, `Pointer.sample` — a frame.
-/

/-- What is heard of the pointer. -/
inductive PointerEvent (α : Type) where
  /-- It is at a place. -/
  | move (p : Point α)
  /-- A button is pressed; only the first one counts. -/
  | press (p : Point α) (isFirst : Bool)
  /-- A button is let go. -/
  | release (p : Point α) (isFirst : Bool)
  /-- It is not above the window any more. -/
  | leave
  /-- The wheel is turned. -/
  | scroll (delta : α)
  deriving DecidableEq, Repr

/-- What is known of the pointer between two frames. -/
structure Pointer (α : Type) where
  /-- Its place, if it is above the window. -/
  latest : Option (Point α)
  /-- Its first button is down. -/
  isDown : Bool
  deriving DecidableEq, Repr

/-- The pointer in one frame. -/
structure Sample (α : Type) where
  /-- How far the wheel was turned. -/
  scroll : α
  /-- The first button was pressed in this frame. -/
  pressed : Bool
  /-- The first button was let go in this frame. -/
  released : Bool
  /-- The first button is down at the end of the frame. -/
  down : Bool
  /-- The pointer is not where it was before. -/
  moved : Bool
  /-- The place that the frame is about. -/
  position : Option (Point α)
  deriving DecidableEq, Repr

namespace Pointer

variable {α : Type}

/-- No pointer was heard of. -/
def unknown : Pointer α := ⟨none, false⟩

/-- The places differ in a coordinate. -/
def differ [Arith α] (p q : Point α) : Bool :=
  !(Arith.isZero (p.x - q.x) && Arith.isZero (p.y - q.y))

/-- The pointer is above the window before and after, at different places. -/
def hasMoved [Arith α] (before after : Option (Point α)) : Bool :=
  match before, after with
  | some p, some q => differ q p
  | _, _ => false

/-- The pointer and the sample so far, after one more event. -/
def hear [Scalar α] (state : Pointer α × Sample α) : PointerEvent α → Pointer α × Sample α
  | .move p =>
    ({ state.1 with latest := some p }, { state.2 with position := some p })
  | .press p isFirst =>
    (⟨some p, state.1.isDown || isFirst⟩,
     { state.2 with position := some p, pressed := state.2.pressed || isFirst })
  | .release p isFirst =>
    (⟨some p, state.1.isDown && !isFirst⟩,
     { state.2 with position := some p, released := state.2.released || isFirst })
  | .leave => ({ state.1 with latest := none }, state.2)
  | .scroll delta =>
    (state.1, { state.2 with scroll := Scalar.narrow (state.2.scroll + delta) })

/-- What is heard of the pointer in a frame, and what is known of it afterwards. -/
def sample [Scalar α] (before : Pointer α) (events : List (PointerEvent α)) :
    Sample α × Pointer α :=
  let (after, s) := events.foldl hear
    (before, ⟨(0 : α), false, false, before.isDown, false, before.latest⟩)
  ({ s with down := after.isDown, moved := hasMoved before.latest after.latest }, after)

end Pointer

end TurtleCurves
