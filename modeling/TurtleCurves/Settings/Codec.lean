import TurtleCurves.Settings.Basic
import TurtleCurves.Settings.Value

namespace TurtleCurves

/-!
# Settings as value trees

* `Settings.toValue` — the tree of settings: a map by field names, colours as `#rrggbb`, modes
  by name, and the grammar of a preset among the fields of the preset;
* `Settings.ofValue?` — the settings of a tree: fields may be left out where there is a
  default, unknown ones are passed over, and no field may come twice.
-/

variable {α : Type} [Scalar α]

namespace Value

/-- A map by names. -/
def record (fields : List (String × Value α)) : Value α :=
  .map (fields.map fun f => (.text f.1.toList, f.2))

/-- A text. -/
def ofString (s : String) : Value α := .text s.toList

/-- A count. -/
def count (n : Nat) : Value α := .integer (Int.ofNat n)

/-- A colour. -/
def ofColor (c : Rgb) : Value α := ofString c.hex

/-- The colour of a text. -/
def color? (v : Value α) : Option Rgb := v.text?.bind Rgb.ofHex?

/-- A single letter. -/
def letter? (v : Value α) : Option Char :=
  match v.text? with
  | some [c] => some c
  | _ => none

/-- Below this limit is what fits into 64 bits. -/
def wide : Nat := Nat.pow 2 64

/-- Below this limit is what fits into 32 bits. -/
def narrow : Nat := Nat.pow 2 32

end Value

open Value

/-! ### Presets -/

/-- The tree of a point. -/
def Point.toValue (p : Point α) : Value α := record [("x", .real p.x), ("y", .real p.y)]

/-- The point of a tree: two fields, or a list of two numbers. -/
def Point.ofValue? : Value α → Option (Point α)
  | .list [x, y] => do return ⟨← x.real?, ← y.real?⟩
  | v => do
    let fields ← v.fields?
    return ⟨← Fields.require? fields "x" real?, ← Fields.require? fields "y" real?⟩

/-- The tree of rules: expansions by letter. -/
def Rules.toValue (r : Rules) : Value α :=
  .map (r.entries.map fun e => (.text [e.1], .text e.2))

/-- The rules of a tree; of two expansions of one letter the later one counts. -/
def Rules.ofValue? : Value α → Option Rules
  | .map entries =>
    SortedMap.ofList <$> entries.mapM fun (k, v) => do return (← k.letter?, ← v.text?)
  | _ => none

/-- The fields of a grammar. -/
def Grammar.toFields (g : Grammar α) : List (String × Value α) :=
  [("axiom", .text g.seed), ("rules", g.rules.toValue), ("angle", .real g.angle),
   ("length", .real g.length), ("start_angle", .real g.startAngle), ("origin", g.origin.toValue)]

/-- The grammar among the fields of a preset. -/
def Grammar.ofFields? (fields : List (List Char × Value α)) : Option (Grammar α) := do
  return {
    seed := ← Fields.require? fields "axiom" text?
    rules := ← Fields.optional? fields "rules" ∅ Rules.ofValue?
    angle := ← Fields.require? fields "angle" real?
    length := ← Fields.require? fields "length" real?
    startAngle := ← Fields.optional? fields "start_angle" 0 real?
    origin := ← Fields.optional? fields "origin" Point.origin Point.ofValue? }

/-- The tree of a preset. -/
def Preset.toValue (p : Preset α) : Value α :=
  record (("key", ofString p.key) :: ("name", ofString p.name) :: p.grammar.toFields)

/-- The name is that of a preset itself and not of its grammar. -/
def Preset.isOwnField (name : List Char) : Bool := name == "key".toList || name == "name".toList

/-- The preset of a tree.  Key and name are texts whatever they look like; everything else is
read by its looks first. -/
def Preset.ofValue? (v : Value α) : Option (Preset α) := do
  let fields ← v.fields?
  let key ← Fields.require? fields "key" text?
  let name ← Fields.require? fields "name" text?
  let others ← (fields.filter fun f => !isOwnField f.1).mapM fun (n, v) => v.typed?.map (n, ·)
  return ⟨String.ofList key, String.ofList name, ← Grammar.ofFields? others⟩

/-! ### Settings -/

/-- The tree of a palette. -/
def Palette.toValue (p : Palette) : Value α := .list (p.colors.map ofColor)

/-- The palette of a tree. -/
def Palette.ofValue? (v : Value α) : Option Palette := do
  return Palette.ofList (← (← v.items?).mapM color?)

/-- The colour mode of a tree. -/
def ColorMode.ofValue? (v : Value α) : Option ColorMode :=
  v.text?.bind fun s => ofName? (String.ofList s)

/-- The axis of a tree. -/
def PositionAxis.ofValue? (v : Value α) : Option PositionAxis :=
  v.text?.bind fun s => ofName? (String.ofList s)

/-- The tree of a pace. -/
def Pace.toValue (p : Pace) : Value α :=
  record [("delay_ms", count p.delay), ("max_steps", count p.maxSteps)]

/-- The pace of a tree. -/
def Pace.ofValue? (v : Value α) : Option Pace := do
  let fields ← v.fields?
  return ⟨← Fields.require? fields "delay_ms" (natural? wide),
    ← Fields.require? fields "max_steps" (natural? narrow)⟩

/-- The tree of limits. -/
def Limits.toValue (l : Limits) : Value α :=
  record [("manual_ceiling", count l.manual), ("animation_ceiling", count l.animation)]

/-- The limits of a tree. -/
def Limits.ofValue? (v : Value α) : Option Limits := do
  let fields ← v.fields?
  return ⟨← Fields.optional? fields "manual_ceiling" Limits.default.manual (natural? wide),
    ← Fields.optional? fields "animation_ceiling" Limits.default.animation (natural? wide)⟩

namespace Settings

/-- The tree of settings. -/
def toValue (s : Settings α) : Value α :=
  record
    [("presets", .list (s.presets.map Preset.toValue)),
     ("palette", s.palette.toValue),
     ("background", ofColor s.background),
     ("stroke_width", .real s.strokeWidth),
     ("color_mode", ofString s.colorMode.name),
     ("position_axis", ofString s.axis.name),
     ("animation", s.pace.toValue),
     ("limits", s.limits.toValue)]

/-- The settings of a tree; what is left out is as by default. -/
def ofValue? (v : Value α) : Option (Settings α) := do
  let fields ← v.fields?
  let standard : Settings α := Settings.default
  return {
    presets := ← Fields.optional? fields "presets" standard.presets fun v => do
      (← v.items?).mapM Preset.ofValue?
    palette := ← Fields.optional? fields "palette" standard.palette Palette.ofValue?
    background := ← Fields.optional? fields "background" standard.background color?
    strokeWidth := ← Fields.optional? fields "stroke_width" standard.strokeWidth real?
    colorMode := ← Fields.optional? fields "color_mode" standard.colorMode ColorMode.ofValue?
    axis := ← Fields.optional? fields "position_axis" standard.axis PositionAxis.ofValue?
    pace := ← Fields.optional? fields "animation" standard.pace Pace.ofValue?
    limits := ← Fields.optional? fields "limits" standard.limits Limits.ofValue? }

end Settings

end TurtleCurves
