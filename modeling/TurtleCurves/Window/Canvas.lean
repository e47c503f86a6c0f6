import TurtleCurves.Window.Basic
import TurtleCurves.Window.Painting
import TurtleCurves.Window.Pointer

namespace TurtleCurves

/-!
# The canvas

Within a frame the touches come first, one after the other; then the pointer is looked at once,
then the keys.

* `CanvasInput` — what the canvas hears in one frame;
* `CanvasEvent`, `CanvasInput.gather` — the same from single events;
* `Window.canvas` — a frame of the canvas;
* `Window.shapes` — what is painted at its end.
-/

/-! ### Input -/

/-- The keys that were pressed in a frame. -/
structure Keys where
  space : Bool
  letterR : Bool
  home : Bool
  deriving DecidableEq, Repr

/-- No key was pressed. -/
def Keys.none : Keys := ⟨false, false, false⟩

/-- A key. -/
inductive Key where
  | space
  | letterR
  | home
  | other
  deriving DecidableEq, Repr

/-- The keys with one more. -/
def Keys.press (ks : Keys) : Key → Keys
  | .space => { ks with space := true }
  | .letterR => { ks with letterR := true }
  | .home => { ks with home := true }
  | .other => ks

/-- What the canvas hears in one frame; places are those of the window. -/
structure CanvasInput (α : Type) where
  touches : List (TouchEvent α)
  pointer : Sample α
  keys : Keys
  deriving DecidableEq, Repr

/-- A single event. -/
inductive CanvasEvent (α : Type) where
  | touch (e : TouchEvent α)
  | pointer (e : PointerEvent α)
  /-- A key goes down or up. -/
  | key (k : Key) (isPressed : Bool)
  deriving DecidableEq, Repr

namespace CanvasEvent

variable {α : Type}

def touch? : CanvasEvent α → Option (TouchEvent α)
  | touch e => some e
  | _ => none

def pointer? : CanvasEvent α → Option (PointerEvent α)
  | pointer e => some e
  | _ => none

def pressedKey? : CanvasEvent α → Option Key
  | key k true => some k
  | _ => none

/-- Some button of the pointer is pressed. -/
def isPress : CanvasEvent α → Bool
  | pointer (.press _ _) => true
  | _ => false

end CanvasEvent

/-- The input of a frame in which these events come, and the pointer after it.  Keys are only
heard if no text field has them. -/
def CanvasInput.gather {α : Type} [Scalar α] (before : Pointer α) (hearsKeys : Bool)
    (events : List (CanvasEvent α)) : CanvasInput α × Pointer α :=
  let (sample, after) := before.sample (events.filterMap CanvasEvent.pointer?)
  let keys := (events.filterMap CanvasEvent.pressedKey?).foldl Keys.press Keys.none
  (⟨events.filterMap CanvasEvent.touch?, sample, if hearsKeys then keys else Keys.none⟩, after)

namespace Window

variable {α : Type} [Scalar α]

/-! ### Touches -/

/-- The window after one touch. -/
def touch (area : Area α) (w : Window α) (e : TouchEvent α) : Window α :=
  let (pinch, touches) := w.touches.update { e with position := area.toLocal e.position }
  let w := { w with touches := touches }
  match pinch with
  | none => w
  | some p => w.gesture p.gesture

/-- Two fingers are down. -/
def isPinching (w : Window α) : Bool := 2 ≤ w.touches.count

/-! ### Pointer -/

/-- The wheel is turned above the canvas. -/
def wheel (area : Area α) (w : Window α) (p : Point α) (s : Sample α) : Window α :=
  if area.contains p then w.gesture (.wheel (area.toLocal p) s.scroll) else w

/-- The pointer is pressed on the canvas, or it is moved with its button down; while two fingers
pinch it does not move the view. -/
def drag (area : Area α) (w : Window α) (p : Point α) (s : Sample α) : Window α :=
  if s.pressed && area.contains p then w.gesture (.panStart (area.toLocal p))
  else if s.down && s.moved && !w.isPinching then w.gesture (.panMove (area.toLocal p))
  else w

/-- The pointer is let go. -/
def letGo (w : Window α) (s : Sample α) : Window α :=
  if s.released && w.explorer.viewport.isDragging then w.report w.explorer.release else w

/-- The window after a look at the pointer. -/
def point (area : Area α) (w : Window α) (s : Sample α) : Window α :=
  let w := match s.position with
    | none => w
    | some p => drag area (wheel area w p s) p s
  w.letGo s

/-! ### Keys -/

/-- The window after the keys: the space bar grows, `r` goes back to the seed, the home key
resets the view. -/
def keys (w : Window α) (ks : Keys) : Window α :=
  let w := if ks.space then w.report w.explorer.grow else w
  let w := if ks.letterR then w.report w.explorer.rewind else w
  if ks.home then w.gesture .reset else w

/-! ### A frame -/

/-- The window after a frame of the canvas. -/
def canvas (w : Window α) (area : Area α) (input : CanvasInput α) : Window α :=
  let w := w.gesture (.resize area.width area.height)
  let w := input.touches.foldl (touch area) w
  let w := point area w input.pointer
  w.keys input.keys

/-- The window after several frames of the canvas. -/
def canvasAll (w : Window α) (area : Area α) (inputs : List (CanvasInput α)) : Window α :=
  inputs.foldl (fun w input => w.canvas area input) w

/-- What is painted. -/
def shapes (w : Window α) (area : Area α) : List (Shape α) :=
  Painting.shapes area w.explorer.frame

end Window

end TurtleCurves
