import TurtleCurves.Explorer.Export
import TurtleCurves.Window.Basic

namespace TurtleCurves

/-!
# Controls

What a user can do to the panel beside the canvas, and what comes of it.

* `TextField`, `NumberField`, `Swatch`, `Button` — the controls that take an input;
* `Edit` — one input;
* `Window.edit` — the window after an input;
* `Window.hold` — numbers are held within the ranges of their controls.
-/

/-- The text fields. -/
inductive TextField where
  | seed
  | rules
  /-- The palette link. -/
  | link
  | pictureName
  deriving DecidableEq, Repr

/-- The controls that show a number. -/
inductive NumberField where
  | angle
  | length
  | startAngle
  | delay
  | maxSteps
  | strokeWidth
  deriving DecidableEq, Repr

/-- The controls that show a colour. -/
inductive Swatch where
  /-- One stop of the palette. -/
  | stop (index : Nat)
  | background
  deriving DecidableEq, Repr

/-- The buttons. -/
inductive Button where
  | apply
  | next
  | rewind
  | resetView
  | toggle
  | importLink
  | savePicture
  deriving DecidableEq, Repr

/-- One input. -/
inductive Edit (α : Type) where
  | press (button : Button)
  | type (field : TextField) (text : List Char)
  | set (field : NumberField) (value : α)
  | paint (swatch : Swatch) (color : Rgb)
  | choosePreset (key : String)
  | chooseMode (mode : ColorMode)
  | chooseAxis (axis : PositionAxis)
  | chooseStop (symbol : Char) (index : Nat)
  deriving DecidableEq, Repr

/-! ### Ranges -/

/-- `x` moved into `lo … hi`; what is not comparable goes to the upper end. -/
def hold {α : Type} [Arith α] (lo hi x : α) : α :=
  if x ≤ lo then lo else if x < hi then x else hi

/-- A whole number within `lo … hi`: the nearest one, halves upward. -/
def holdWhole {α : Type} [Arith α] (lo hi : Nat) (x : α) : Nat :=
  lo + Arith.truncateNat
    (Arith.round (hold (Arith.ofNat lo : α) (Arith.ofNat hi) x - (Arith.ofNat lo : α)))

namespace Window

variable {α : Type} [Scalar α]

/-- Every number is held within the range of its control. -/
def hold (w : Window α) : Window α :=
  let e := w.explorer
  { w with
    editor := { w.editor with length := TurtleCurves.hold 0.1 200 w.editor.length }
    explorer := { e with
      pace := ⟨max 50 (min 2000 e.pace.delay), max 1 (min 10 e.pace.maxSteps)⟩
      strokeWidth := TurtleCurves.hold 0.5 10 e.strokeWidth } }

/-! ### Inputs -/

/-- Another text in a field. -/
def type (w : Window α) (text : List Char) : TextField → Window α
  | .seed => { w with editor := { w.editor with seed := text } }
  | .rules => { w with editor := { w.editor with rules := text } }
  | .link => { w with link := text }
  | .pictureName => { w with pictureName := text }

/-- The window with another explorer. -/
def withExplorer (w : Window α) (e : Explorer α) : Window α := { w with explorer := e }

/-- Another number in a control. -/
def set (w : Window α) (x : α) : NumberField → Window α
  | .angle => { w with editor := { w.editor with angle := x } }
  | .length => { w with editor := { w.editor with length := x } }
  | .startAngle => { w with editor := { w.editor with startAngle := x } }
  | .delay => w.withExplorer
      { w.explorer with pace := { w.explorer.pace with delay := holdWhole 50 2000 x } }
  | .maxSteps => w.withExplorer
      { w.explorer with pace := { w.explorer.pace with maxSteps := holdWhole 1 10 x } }
  | .strokeWidth => w.withExplorer { w.explorer with strokeWidth := x }

/-- Another colour. -/
def paint (w : Window α) (c : Rgb) : Swatch → Window α
  | .stop i => w.withExplorer (w.explorer.setColor i c)
  | .background => w.withExplorer { w.explorer with background := c }

/-- Shows another preset; the selected one is not loaded anew. -/
def choosePreset (w : Window α) (key : String) : Window α :=
  if key = w.explorer.presetKey.getD "" then w else w.load key

/-- Starts a run or calls it off; only a failure is told. -/
def toggle (w : Window α) (now : Moment) : Window α :=
  let (result, e) := w.explorer.toggle now
  { w with
    explorer := e
    status := match result with
      | .ok _ => w.status
      | .error failure => some failure.message }

/-- What the status line says about a picture that was saved. -/
def savedStatus (path : List Char) : String := "Saved " ++ String.ofList path

/-- What the status line says about a picture that could not be saved. -/
def exportFailedStatus (reason : String) : String := "Export failed: " ++ reason

/-- Saves the picture on show under the name that is typed in, if there is one. -/
def savePicture (w : Window α) (time : String) : Window α :=
  let name := Text.trim w.pictureName
  let paths := PicturePaths.ofName w.outputFolder name
  if name = [] then w
  else
    match w.explorer.pictureChanges time w.outputFolder paths with
    | .error failure => { w with status := some (exportFailedStatus failure.message) }
    | .ok changes =>
      let (fault, d) := w.directory.performAll changes
      { w with
        directory := d
        status := match fault with
          | none => some (savedStatus paths.picture)
          | some fault => some (exportFailedStatus fault.message) }

/-- A button is pressed. -/
def press (w : Window α) (now : Moment) (time : String) : Button → Window α
  | .apply => w.report (w.explorer.customize w.editor)
  | .next => w.report w.explorer.grow
  | .rewind => w.report w.explorer.rewind
  | .resetView => w.gesture .reset
  | .toggle => w.toggle now
  | .importLink => w.report (w.explorer.importLink w.link)
  | .savePicture => w.savePicture time

/-- The window after an input. -/
def edit (w : Window α) (now : Moment) (time : String) : Edit α → Window α
  | .press b => w.press now time b
  | .type field text => w.type text field
  | .set field x => w.set x field
  | .paint swatch c => w.paint c swatch
  | .choosePreset key => w.choosePreset key
  | .chooseMode mode => w.withExplorer { w.explorer with colorMode := mode }
  | .chooseAxis axis => w.withExplorer { w.explorer with axis := axis }
  | .chooseStop c i => w.withExplorer (w.explorer.setSymbol c i)

end Window

end TurtleCurves
