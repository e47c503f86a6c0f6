import TurtleCurves.Decimal.Rounding
import TurtleCurves.Explorer.Basic
import TurtleCurves.Raster.Surface

namespace TurtleCurves

/-!
# Reports

* `Statistics` — a derivation in numbers;
* `Explorer.settingsText` — the settings of a picture as text;
* `Explorer.picture` — the picture itself, at the size of the canvas.
-/

/-! ### Statistics -/

/-- A derivation in numbers. -/
structure Statistics (α : Type) where
  preset : Option String
  iteration : Nat
  sentenceLength : Nat
  segments : Nat
  bounds : Bounds α
  alphabet : List Char
  deriving DecidableEq, Repr

/-- The numbers of a derivation. -/
def Derivation.statistics {α : Type} [Scalar α] (d : Derivation α) (preset : Option String) :
    Statistics α :=
  ⟨preset, d.iteration, d.size, d.segmentCount, d.bounds, d.alphabet⟩

namespace Explorer

variable {α : Type} [Scalar α]

/-- The numbers of the derivation on show. -/
def statistics? (e : Explorer α) : Option (Statistics α) :=
  e.derivation.map fun d => d.statistics e.presetKey

/-! ### Settings of a picture -/

/-- A label and its value on one line. -/
def entry (label value : String) : List Char := label.toList ++ value.toList

/-- The grammar of a picture. -/
def grammarLines (g : Grammar α) : List (List Char) :=
  [entry "-- L-System --" "",
   "Axiom:            ".toList ++ g.seed,
   entry "Rules:" ""] ++
  (Text.lines g.rules.render).map (fun line => ' ' :: ' ' :: line) ++
  [entry "Angle:            " (Scalar.text g.angle ++ "°"),
   entry "Length:           " (Scalar.text g.length),
   entry "Start angle:      " (Scalar.text g.startAngle ++ "°"),
   entry "Translate origin: "
     ("x=" ++ Scalar.text g.origin.x ++ ", y=" ++ Scalar.text g.origin.y)]

/-- A letter with the colour it is drawn in. -/
def assignment (palette : Palette) (a : Char × Nat) : String :=
  String.singleton a.1 ++ "=" ++ (palette.get a.2).hex

/-- The colours of a picture; what only matters in one mode is only listed in that mode. -/
def colorLines (e : Explorer α) : List (List Char) :=
  [entry "-- Colors --" "",
   entry "Color mode:       " e.colorMode.name,
   entry "Palette:          " (String.intercalate ", " (e.palette.colors.map Rgb.hex)),
   entry "Background:       " e.background.hex] ++
  (if e.colorMode = .position then [entry "Position mode:    " e.axis.name] else []) ++
  (if e.colorMode = .perSymbol then
    [entry "Symbol colors:    "
      (String.intercalate ", " (e.symbols.entries.map (assignment e.palette)))]
   else [])

/-- The strokes, the present state and the pace of a picture. -/
def stateLines (e : Explorer α) (d : Derivation α) : List (List Char) :=
  [entry "-- Visual --" "",
   entry "Stroke weight:    " (Scalar.text e.strokeWidth ++ "px"),
   [],
   entry "-- State --" "",
   entry "Iteration:        " (toString d.iteration),
   entry "Sentence length:  " (Decimal.grouped d.size ++ " chars"),
   [],
   entry "-- Animation --" "",
   entry "Delay:            " (toString e.pace.delay ++ "ms"),
   entry "Max steps:        " (toString e.pace.maxSteps)]

/-- The settings of the picture on show, line by line; `time` says when it was taken. -/
def settingsLines (e : Explorer α) (d : Derivation α) (time : String) : List (List Char) :=
  [entry "L-System Settings" "",
   entry "==================" "",
   entry "Exported:         " time,
   []] ++
  grammarLines d.grammar ++ [[]] ++ e.colorLines ++ [[]] ++ e.stateLines d

/-- The settings of the picture on show as text. -/
def settingsText (e : Explorer α) (time : String) : Except (Failure α) (List Char) :=
  match e.derivation with
  | none => .error .noSystem
  | some d => .ok (Text.unlines (e.settingsLines d time))

/-! ### The picture -/

/-- A canvas measure as a number of pixels, at least one. -/
def pixels (x : α) : Nat := min (Nat.pow 2 32 - 1) (Arith.truncateNat (max (Arith.round x) 1))

/-- The frame on show, painted into an image of the size of the canvas. -/
def picture (e : Explorer α) : Image :=
  ((Raster.ofSize (pixels e.viewport.width) (pixels e.viewport.height)).run e.frame).image

end Explorer

end TurtleCurves
