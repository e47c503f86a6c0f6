import TurtleCurves.Window.Controls

namespace TurtleCurves

/-!
# The panel

The panel is a list of widgets, from top to bottom.  A widget shows a part of the window and
carries the inputs that it takes, so that whatever can be done to a window can be found in its
panel.

* `Widget`, `Choice` — one widget;
* `Window.panel` — all widgets of a window;
* `Window.button?`, `Window.item?`, `Window.hasField`, `Window.hasSwatch` — what can be done.
-/

/-- The lists that one item is chosen from. -/
inductive Choice where
  | preset
  | mode
  | axis
  /-- The palette stop of a letter. -/
  | stop (symbol : Char)
  deriving DecidableEq, Repr

/-- One widget. -/
inductive Widget (α : Type) where
  | label (text : String)
  /-- A dot in a colour. -/
  | dot (color : Rgb)
  | field (which : TextField) (text : List Char)
  | number (which : NumberField) (value : α)
  | slider (which : NumberField) (title : String) (value : α)
  | swatch (which : Swatch) (color : Rgb)
  | button (which : Button) (title : String)
  | choice (which : Choice) (shown : String) (items : List (String × Edit α))
  deriving DecidableEq, Repr

namespace Window

variable {α : Type} [Scalar α]

/-! ### Grammar -/

/-- The name of what is on show. -/
def presetName (e : Explorer α) : String :=
  match e.presets.get? (e.presetKey.getD "") with
  | some p => p.name
  | none => "Custom"

/-- The presets to choose from. -/
def presetItems (e : Explorer α) : List (String × Edit α) :=
  e.presets.presets.map fun p => (p.name, .choosePreset p.key)

def grammarWidgets (w : Window α) : List (Widget α) :=
  [.label "Preset:",
   .choice .preset (presetName w.explorer) (presetItems w.explorer),
   .label "Axiom:",
   .field .seed w.editor.seed,
   .label "Rules (symbol=expansion):",
   .field .rules w.editor.rules,
   .number .angle w.editor.angle,
   .number .length w.editor.length,
   .number .startAngle w.editor.startAngle,
   .button .apply "Apply"]

/-! ### Iteration -/

/-- A number of characters in words. -/
def characterCount (n : Nat) : String :=
  Decimal.grouped n ++ (if n = 1 then " char" else " chars")

/-- How far the word on show has grown. -/
def progress (d : Derivation α) : String :=
  "Iteration: " ++ toString d.iteration ++ " · " ++ characterCount d.size

/-- The title of the button that starts a run or calls it off. -/
def toggleTitle (e : Explorer α) : String := if e.isAnimating then "⏸ Pause" else "▶ Auto"

/-- A slider has its number and its title after it. -/
def sliderWidgets (which : NumberField) (title : String) (value : α) : List (Widget α) :=
  [.slider which title value, .number which value, .label title]

def iterationWidgets (w : Window α) : List (Widget α) :=
  [.button .next "Next ▶", .button .rewind "Reset", .button .resetView "Reset view"] ++
  (w.explorer.derivation.map fun d => .label (progress d)).toList ++
  [.button .toggle (toggleTitle w.explorer)] ++
  sliderWidgets .delay "Delay (ms)" (Arith.ofNat w.explorer.pace.delay) ++
  sliderWidgets .maxSteps "Max steps" (Arith.ofNat w.explorer.pace.maxSteps)

/-! ### Colours -/

def modeItems : List (String × Edit α) := ColorMode.all.map fun m => (m.name, .chooseMode m)

def axisItems : List (String × Edit α) := PositionAxis.all.map fun a => (a.name, .chooseAxis a)

/-- Only positions are measured along an axis. -/
def axisWidgets (e : Explorer α) : List (Widget α) :=
  if e.colorMode = .position then [.label "Axis:", .choice .axis e.axis.name axisItems] else []

def paletteWidgets (e : Explorer α) : List (Widget α) :=
  e.palette.colors.zipIdx.map fun (c, i) => .swatch (.stop i) c

/-- The palette stops that a letter can have, counted from one. -/
def stopItems (e : Explorer α) (symbol : Char) : List (String × Edit α) :=
  e.palette.colors.zipIdx.map fun (c, i) =>
    (toString (i + 1) ++ " " ++ c.hex, .chooseStop symbol i)

def symbolWidgets (e : Explorer α) (entry : Char × Nat) : List (Widget α) :=
  [.dot (e.palette.get entry.2),
   .label (String.singleton entry.1),
   .choice (.stop entry.1) (toString (entry.2 + 1)) (stopItems e entry.1)]

/-- Only in one mode letters have colours of their own. -/
def symbolsWidgets (e : Explorer α) : List (Widget α) :=
  if e.colorMode = .perSymbol then e.symbols.entries.flatMap (symbolWidgets e) else []

def colorWidgets (w : Window α) : List (Widget α) :=
  let e := w.explorer
  [.label "Color mode:", .choice .mode e.colorMode.name modeItems] ++
  axisWidgets e ++
  .label "Palette:" :: paletteWidgets e ++
  [.label "Background:", .swatch .background e.background,
   .field .link w.link, .button .importLink "Import"] ++
  symbolsWidgets e ++
  sliderWidgets .strokeWidth "Stroke" e.strokeWidth

/-! ### The whole panel -/

def exportWidgets (w : Window α) : List (Widget α) :=
  [.field .pictureName w.pictureName, .button .savePicture "Export PNG"]

/-- All widgets from top to bottom. -/
def panel (w : Window α) : List (Widget α) :=
  .label "L-System" :: w.grammarWidgets ++ w.iterationWidgets ++
  .label "Colors" :: w.colorWidgets ++
  .label "Export" :: w.exportWidgets ++
  (w.status.map Widget.label).toList

/-! ### What can be done -/

/-- The button with a title. -/
def button? (w : Window α) (title : String) : Option (Edit α) :=
  w.panel.findSome? fun
    | .button which t => if t = title then some (.press which) else none
    | _ => none

/-- An item of a list. -/
def item? (w : Window α) (which : Choice) (item : String) : Option (Edit α) :=
  w.panel.findSome? fun
    | .choice c _ items =>
      if c = which then (items.find? fun i => i.1 == item).map Prod.snd else none
    | _ => none

/-- There is a text field of a kind. -/
def hasField (w : Window α) (which : TextField) : Bool :=
  w.panel.any fun
    | .field f _ => f = which
    | _ => false

/-- There is a control for a colour. -/
def hasSwatch (w : Window α) (which : Swatch) : Bool :=
  w.panel.any fun
    | .swatch s _ => s = which
    | _ => false

end Window

end TurtleCurves
