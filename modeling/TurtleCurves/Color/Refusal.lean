import TurtleCurves.Color.Mode
import TurtleCurves.Color.Rgb

namespace TurtleCurves

/-!
# What is not a colour

A text may be refused where a colour, a palette or the name of a colouring is expected.

* `ColorRefusal` — the causes, with their wording;
* `Rgb.read`, `ColorMode.read`, `PositionAxis.read` — readings that tell the cause, with the text
  as it was given.
-/

/-- Why a text says nothing about colours. -/
inductive ColorRefusal where
  /-- It is not a hexadecimal colour. -/
  | invalidHex (text : String)
  /-- No palette is found in it. -/
  | noPalette
  /-- It names no colouring mode. -/
  | unknownMode (name : String)
  /-- It names no axis. -/
  | unknownAxis (name : String)
  deriving DecidableEq, Repr

/-- The wording of a refusal. -/
def ColorRefusal.message : ColorRefusal → String
  | .invalidHex text => "Invalid hex color: " ++ text
  | .noPalette => "No valid Coolors palette found in URL"
  | .unknownMode name => "Unknown color mode: " ++ name
  | .unknownAxis name => "Unknown position axis: " ++ name

/-- The value of a reading, or the cause for which there is none. -/
def ColorRefusal.orElse {β : Type} (refusal : ColorRefusal) : Option β → Except ColorRefusal β
  | some x => .ok x
  | none => .error refusal

/-- The colour of a text. -/
def Rgb.read (text : String) : Except ColorRefusal Rgb :=
  (ColorRefusal.invalidHex text).orElse (Rgb.ofHex? text.toList)

/-- The mode of a name. -/
def ColorMode.read (name : String) : Except ColorRefusal ColorMode :=
  (ColorRefusal.unknownMode name).orElse (ColorMode.ofName? name)

/-- The axis of a name. -/
def PositionAxis.read (name : String) : Except ColorRefusal PositionAxis :=
  (ColorRefusal.unknownAxis name).orElse (PositionAxis.ofName? name)

end TurtleCurves
