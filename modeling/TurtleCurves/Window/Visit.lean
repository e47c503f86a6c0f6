import TurtleCurves.Window.Frame
import TurtleCurves.Window.Panel

namespace TurtleCurves

/-!
# Visits

A visit is a window with a user in front of it.  The user does one thing at a time; each takes
a number of frames, most of them without any input, because lists and colour pickers open and
close in frames of their own.

* `Visit` — the window, the pointer, the keyboard and the clock;
* `Act` — what a user does;
* `Visit.perform` — the visit after an act; none if there is no such widget.
-/

/-- A window with a user in front of it. -/
structure Visit (α : Type) where
  window : Window α
  /-- Where the canvas is. -/
  area : Area α
  pointer : Pointer α
  /-- A text field has the keyboard. -/
  isTyping : Bool
  now : Moment
  /-- How much time passes before every frame. -/
  pause : Nat
  /-- The present time, as it is written into settings texts. -/
  time : String

/-- What a user does. -/
inductive Act (α : Type) where
  /-- Looks on for a frame. -/
  | look
  | click (title : String)
  | set (field : NumberField) (value : α)
  | type (field : TextField) (text : List Char)
  /-- Gives the keyboard to a text field. -/
  | focus (field : TextField)
  /-- Takes the keyboard away. -/
  | escape
  | pick (list : Choice) (item : String)
  | paint (swatch : Swatch) (color : Rgb)
  | point (events : List (CanvasEvent α))
  /-- From now on takes that long before every frame. -/
  | wait (pause : Nat)
  deriving DecidableEq, Repr

namespace Visit

variable {α : Type} [Scalar α]

/-! ### Frames -/

/-- One frame with an input of the panel and events of the canvas. -/
def frame (v : Visit α) (edit : Option (Edit α)) (events : List (CanvasEvent α)) : Visit α :=
  let now := v.now + v.pause
  let isTyping := v.isTyping && !events.any CanvasEvent.isPress
  let (input, pointer) := CanvasInput.gather v.pointer (!isTyping) events
  { v with
    window := v.window.frame v.area ⟨now, v.time, edit, input⟩
    pointer := pointer
    isTyping := isTyping
    now := now }

/-- Frames without input. -/
def rest (v : Visit α) : Nat → Visit α
  | 0 => v
  | n + 1 => (v.frame none []).rest n

/-- An input of the panel between frames without input. -/
def around (v : Visit α) (before : Nat) (edit : Edit α) (after : Nat) : Visit α :=
  ((v.rest before).frame (some edit) []).rest after

/-! ### Acts -/

/-- The left edge of the canvas: the width of the panel. -/
def panelWidth : α := 384

/-- The canvas of a window of a size. -/
def areaOf (width height : α) : Area α :=
  ⟨panelWidth, Scalar.narrow width, Scalar.narrow height⟩

/-- A visit as it begins: two frames without input. -/
def start (w : Window α) (width height : α) (time : String) : Visit α :=
  (⟨w, areaOf width height, Pointer.unknown, false, 0, 0, time⟩ : Visit α).rest 2

/-- The visit after an act; none if there is no such widget. -/
def perform (v : Visit α) : Act α → Option (Visit α)
  | .look => some (v.rest 1)
  | .click title => (v.window.button? title).map fun e => v.around 0 e 1
  | .set field x => some (v.around 0 (.set field x) 1)
  | .type field text =>
    if v.window.hasField field then some { v.around 2 (.type field text) 2 with isTyping := false }
    else none
  | .focus field =>
    if v.window.hasField field then some ({ v with isTyping := true }.rest 2) else none
  | .escape => some ({ v with isTyping := false }.rest 2)
  | .pick list item => (v.window.item? list item).map fun e => v.around 2 e 2
  | .paint swatch c =>
    if v.window.hasSwatch swatch then some (v.around 4 (.paint swatch c) 2) else none
  | .point events => some ((v.frame none events).rest 1)
  | .wait pause => some { v with pause := pause }

end Visit

end TurtleCurves
