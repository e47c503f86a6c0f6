import TurtleCurves.Explorer.Basic
import TurtleCurves.Storage.Directory
import TurtleCurves.Window.Touches

namespace TurtleCurves

/-!
# The window

A window shows an explorer: a panel of controls on its left, the canvas on its right.

* `Window` — the explorer, what is typed into the panel, and the fingers on the canvas;
* `Window.start` — the window as it opens;
* `Window.report`, `Window.load`, `Window.tick` — operations of the explorer whose outcome the
  status line tells.
-/

/-- The explorer and everything else that the window remembers. -/
structure Window (α : Type) where
  explorer : Explorer α
  /-- The grammar that is being typed in. -/
  editor : Editor α
  /-- The name that the next picture is saved under. -/
  pictureName : List Char
  /-- The palette link that is being typed in. -/
  link : List Char
  status : Option String
  touches : Touches α
  /-- The folder that pictures are saved in. -/
  outputFolder : List Char
  /-- The working directory. -/
  directory : Directory

/-- What stands in the editor when nothing is on show. -/
def Editor.plain {α : Type} [Scalar α] : Editor α := ⟨['F'], [], 90, 10, 0⟩

namespace Window

variable {α : Type} [Scalar α]

/-- A window around an explorer. -/
def around (e : Explorer α) (editor : Editor α) (outputFolder : List Char) (d : Directory) :
    Window α where
  explorer := e
  editor := editor
  pictureName := "fractal".toList
  link := []
  status := none
  touches := Touches.none
  outputFolder := outputFolder
  directory := d

/-- The first preset on show, before the size of the canvas is known. -/
def firstView (s : Settings α) : Explorer α :=
  let e := Explorer.ofSettings s 900 800
  match e.presets.first? with
  | none => e
  | some p => (e.load p.key).2

/-- The editor's text of what is on show. -/
def editorOf (e : Explorer α) : Editor α :=
  match e.derivation with
  | none => Editor.plain
  | some d => Editor.ofGrammar d.grammar

/-- The window as it opens. -/
def start (s : Settings α) (outputFolder : List Char) (d : Directory) : Window α :=
  around (firstView s) (editorOf (firstView s)) outputFolder d

/-! ### Outcomes -/

/-- The status line after an outcome: a failure is told, a success clears it. -/
def statusAfter {β : Type} : Except (Failure α) β → Option String
  | .ok _ => none
  | .error failure => some failure.message

/-- The window after an operation of the explorer. -/
def report {β : Type} (w : Window α) (o : Explorer.Outcome α β) : Window α :=
  { w with explorer := o.2, status := statusAfter o.1 }

/-- The view after an operation on it. -/
def gesture (w : Window α) (g : Viewport.Gesture α) : Window α :=
  { w with explorer := w.explorer.gesture g }

/-- Shows a preset and puts its grammar into the editor. -/
def load (w : Window α) (key : String) : Window α :=
  let o := w.explorer.load key
  let w := w.report o
  if o.1.isOk then { w with editor := editorOf o.2 } else w

/-- What the status line says about a run that ended because a step was refused. -/
def refusedStatus : String := "Auto-iteration stopped: sentence too long"

/-- Lets the run take its pending step if that is due. -/
def tick (w : Window α) (now : Moment) : Window α :=
  let (tick, e) := w.explorer.tick now
  { w with
    explorer := e
    status := if tick = .finished .refused then some refusedStatus else w.status }

end Window

end TurtleCurves
