import TurtleCurves.Animation.Scheduler
import TurtleCurves.Color.Mode
import TurtleCurves.Color.Palette
import TurtleCurves.Preset.Builtin

namespace TurtleCurves

/-!
# Settings

* `Limits` — how long words may get;
* `Settings` — what an explorer starts with;
* `Settings.presetTable` — the built-in presets with the configured ones put in; a configured
  preset that cannot be drawn is left out.
-/

/-- How long words may get, in bytes. -/
structure Limits where
  /-- A longer word is not grown by hand. -/
  manual : Nat
  /-- A longer word ends a run. -/
  animation : Nat
  deriving DecidableEq, Repr

/-- Half a million bytes by hand, two hundred thousand in a run. -/
def Limits.default : Limits := ⟨500000, 200000⟩

/-- What an explorer starts with. -/
structure Settings (α : Type) where
  /-- Presets in addition to the built-in ones; an equal key replaces. -/
  presets : List (Preset α)
  palette : Palette
  background : Rgb
  strokeWidth : α
  colorMode : ColorMode
  axis : PositionAxis
  pace : Pace
  limits : Limits
  deriving DecidableEq

namespace Settings

variable {α : Type} [Scalar α]

/-- What holds for everything that is not configured. -/
def default : Settings α :=
  ⟨[], Palette.default, Rgb.white, 1, .flat, .horizontal, Pace.default, Limits.default⟩

/-- The configured presets that can be drawn, in order. -/
def usable (s : Settings α) : List (Preset α) :=
  s.presets.filter fun p => p.grammar.check.toBool

/-- The configured presets that cannot be drawn, each with its fault, in order. -/
def refused (s : Settings α) : List (Preset α × Grammar.Fault α) :=
  s.presets.filterMap fun p =>
    match p.grammar.check with
    | .ok _ => none
    | .error fault => some (p, fault)

/-- The built-in presets with the usable configured ones put in. -/
def presetTable (s : Settings α) : PresetTable α :=
  s.usable.foldl PresetTable.upsert PresetTable.builtin

end Settings

end TurtleCurves
