import TurtleCurves.Color.PaletteLink
import TurtleCurves.Color.Refusal
import TurtleCurves.Frame.Drawing
import TurtleCurves.Grammar.RuleText
import TurtleCurves.Settings.Basic

namespace TurtleCurves

/-!
# The explorer

One state for everything that can be explored: the derivation on show, how it is viewed and
coloured, and the run that grows it.

* `Explorer` — the state; `Explorer.ofSettings`, its beginning;
* `Editor` — a grammar as it is typed in;
* `Failure` — why an operation does not happen;
* `load`, `customize`, `grow`, `rewind`, `toggle`, `tick`, `release`, `importLink`,
  `setColor`, `setSymbol` — the operations: each gives its outcome together with the next
  state;
* `Explorer.frame` — the drawing calls of the present frame;
* `redrawn`, `surveyed` — what drawing and taking statistics leave behind.
-/

/-! ### State -/

/-- Everything that can be explored. -/
structure Explorer (α : Type) where
  presets : PresetTable α
  /-- The key of the preset that was loaded last. -/
  presetKey : Option String
  /-- The derivation on show. -/
  derivation : Option (Derivation α)
  symbols : SymbolColors
  scheduler : Scheduler
  limits : Limits
  viewport : Viewport α
  palette : Palette
  background : Rgb
  colorMode : ColorMode
  axis : PositionAxis
  strokeWidth : α
  pace : Pace

/-- A grammar as it is typed in. -/
structure Editor (α : Type) where
  seed : List Char
  /-- One rule a line. -/
  rules : List Char
  angle : α
  length : α
  startAngle : α
  deriving DecidableEq, Repr

/-- Why an operation does not happen. -/
inductive Failure (α : Type) where
  /-- No preset has this key. -/
  | unknownPreset (key : String)
  /-- Nothing is on show. -/
  | noSystem
  /-- The grammar cannot be drawn. -/
  | fault (fault : Grammar.Fault α)
  /-- The word is too long to grow. -/
  | overgrown (refusal : Overgrown)
  /-- The text says nothing about colours. -/
  | color (refusal : ColorRefusal)
  deriving DecidableEq, Repr

/-- The wording of a failure. -/
def Failure.message {α : Type} [Scalar α] : Failure α → String
  | .unknownPreset key => "Unknown preset: " ++ key
  | .noSystem => "No L-system loaded"
  | .fault f => f.message
  | .overgrown o => o.message
  | .color c => c.message

/-- The text of a grammar in an editor. -/
def Editor.ofGrammar {α : Type} (g : Grammar α) : Editor α :=
  ⟨g.seed, g.rules.render, g.angle, g.length, g.startAngle⟩

namespace Explorer

variable {α : Type} [Scalar α]

/-- An explorer with nothing on show yet. -/
def ofSettings (s : Settings α) (width height : α) : Explorer α where
  presets := s.presetTable
  presetKey := none
  derivation := none
  symbols := ∅
  scheduler := Scheduler.idle
  limits := s.limits
  viewport := Viewport.ofSize width height
  palette := s.palette
  background := s.background
  colorMode := s.colorMode
  axis := s.axis
  strokeWidth := s.strokeWidth
  pace := s.pace

/-- The outcome of an operation and the state after it. -/
abbrev Outcome (α β : Type) := Except (Failure α) β × Explorer α

/-- A run is active. -/
def isAnimating (e : Explorer α) : Bool := e.scheduler.isActive

/-! ### Choosing what is on show -/

/-- Fits the colours of letters to the alphabet on show. -/
def refreshSymbols (e : Explorer α) : Explorer α :=
  match e.derivation with
  | none => e
  | some d => { e with symbols := e.symbols.refresh d.alphabet e.palette.size }

/-- Shows the seed of a grammar in a fresh view; a run ends. -/
def present (e : Explorer α) (g : Grammar α) : Explorer α :=
  refreshSymbols
    { e with
      scheduler := e.scheduler.stop
      derivation := some (Derivation.start g)
      viewport := e.viewport.reset }

/-- Shows a preset. -/
def load (e : Explorer α) (key : String) : Outcome α Unit :=
  match e.presets.get? key with
  | none => (.error (.unknownPreset key), e)
  | some p => (.ok (), { e with presetKey := some p.key }.present p.grammar)

/-- Where the next grammar that is typed in will start: where the selected preset does. -/
def customOrigin (e : Explorer α) : Point α :=
  match e.presetKey.bind e.presets.get? with
  | some p => p.grammar.origin
  | none => Point.origin

/-- The grammar of an editor. -/
def customGrammar (e : Explorer α) (c : Editor α) : Grammar α :=
  { seed := Text.trim c.seed
    rules := Rules.parse c.rules
    angle := c.angle
    length := c.length
    startAngle := c.startAngle
    origin := e.customOrigin }

/-- Shows the grammar of an editor, if it can be drawn. -/
def customize (e : Explorer α) (c : Editor α) : Outcome α Unit :=
  let g := e.customGrammar c
  match g.check with
  | .error fault => (.error (.fault fault), e)
  | .ok _ => (.ok (), e.present g)

/-! ### Growing -/

/-- One step of growth by hand. -/
def grow (e : Explorer α) : Outcome α Unit :=
  match e.derivation with
  | none => (.error .noSystem, e)
  | some d =>
    match d.growWithin e.limits.manual with
    | .error refusal => (.error (.overgrown refusal), e)
    | .ok d => (.ok (), { e with derivation := some d })

/-- Back to the seed; a run ends. -/
def rewind (e : Explorer α) : Outcome α Unit :=
  match e.derivation with
  | none => (.error .noSystem, e)
  | some d =>
    (.ok (), { e with scheduler := e.scheduler.stop, derivation := some d.rewind })

/-- Starts a run or calls it off. -/
def toggle (e : Explorer α) (now : Moment) : Outcome α (Option StopReason) :=
  match e.derivation with
  | none => (.error .noSystem, e)
  | some d =>
    let (reason, scheduler) := e.scheduler.toggle d e.pace e.limits.animation now
    (.ok reason, { e with scheduler := scheduler })

/-- Lets the run take its pending step if that is due. -/
def tick (e : Explorer α) (now : Moment) : Tick × Explorer α :=
  match e.derivation with
  | none => (.idle, { e with scheduler := e.scheduler.stop })
  | some d =>
    let (tick, scheduler, d) :=
      e.scheduler.poll d e.pace e.limits.manual e.limits.animation now
    (tick, { e with scheduler := scheduler, derivation := some d })

/-! ### Pointer -/

/-- The view after an operation on it. -/
def gesture (e : Explorer α) (g : Viewport.Gesture α) : Explorer α :=
  { e with viewport := e.viewport.perform g }

/-- The pointer is let go; a tap asks for one step of growth. -/
def release (e : Explorer α) : Outcome α Release :=
  let (release, viewport) := e.viewport.panEnd
  let e := { e with viewport := viewport }
  if release = .tap ∧ e.derivation.isSome then
    match e.grow with
    | (.error failure, e) => (.error failure, e)
    | (.ok _, e) => (.ok release, e)
  else (.ok release, e)

/-! ### Colours -/

/-- Another colour for a palette stop. -/
def setColor (e : Explorer α) (i : Nat) (c : Rgb) : Explorer α :=
  { e with palette := e.palette.set i c }

/-- Another palette stop for a letter; a stop that does not exist changes nothing. -/
def setSymbol (e : Explorer α) (c : Char) (i : Nat) : Explorer α :=
  if i < e.palette.size then { e with symbols := e.symbols.insert c i } else e

/-- Takes the leading palette stops from a link; the outcome is how many there were. -/
def importLink (e : Explorer α) (link : List Char) : Outcome α Nat :=
  let (count, palette) := e.palette.importLink link
  (count.mapError .color, { e with palette := palette })

/-! ### Drawing -/

/-- What the colours of strokes are chosen from. -/
def colorSource (e : Explorer α) : ColorSource α :=
  ⟨e.colorMode, e.axis, e.palette, e.symbols, none⟩

/-- The drawing calls of the present frame; none if nothing is on show. -/
def frame (e : Explorer α) : List (Call α) :=
  match e.derivation with
  | none => []
  | some d => Frame.draw d e.viewport e.colorSource e.background e.strokeWidth

/-- The state after the present frame is drawn: what was measured for it is remembered. -/
def redrawn (e : Explorer α) : Explorer α :=
  { e with derivation := e.derivation.map fun d => Frame.measured d e.colorMode }

/-- The state after statistics are taken: both measurements are remembered. -/
def surveyed (e : Explorer α) : Explorer α :=
  { e with derivation := e.derivation.map fun d => d.noteSegments.noteBounds }

end Explorer

end TurtleCurves
