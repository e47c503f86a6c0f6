import TurtleCurves.Color.Palette
import TurtleCurves.Color.Refusal
import TurtleCurves.Text.Lines

namespace TurtleCurves

/-!
# Palettes in links

Palette sites put the colours of a palette into the link: groups of six hexadecimal digits with
a single hyphen between them.

* `PaletteLink.group?` — six digits at the start of a text;
* `PaletteLink.run?` — the longest run of groups at the start of a text;
* `PaletteLink.find?` — the run at the first place where six digits start;
* `Palette.takeOver` — stops overwritten one after the other with the colours of texts;
* `Palette.importLink` — a palette with its leading stops overwritten from a link.
-/

namespace PaletteLink

/-- The six hexadecimal digits a text starts with, and the rest. -/
def group? (cs : List Char) : Option (List Char × List Char) :=
  let digits := cs.take 6
  if digits.length = 6 ∧ digits.all Text.isHexDigit then some (digits, cs.drop 6) else none

/-- The groups that follow, each after a single hyphen; `fuel` bounds their number. -/
def more : Nat → List Char → List Char
  | fuel + 1, '-' :: cs =>
    match group? cs with
    | some (digits, rest) => '-' :: (digits ++ more fuel rest)
    | none => []
  | _, _ => []

/-- The run of groups a text starts with. -/
def run? (cs : List Char) : Option (List Char) :=
  match group? cs with
  | some (digits, rest) => some (digits ++ more rest.length rest)
  | none => none

/-- The run at the first place of a text where six digits start. -/
def find? : List Char → Option (List Char)
  | [] => none
  | c :: cs =>
    match run? (c :: cs) with
    | some run => some run
    | none => find? cs

end PaletteLink

namespace Palette

/-- Overwrites stops with the colours of texts, one after the other.  A text that is no colour ends
it, and what was overwritten by then stays so. -/
def takeOver : List Rgb → List (List Char) → Except ColorRefusal Nat × List Rgb
  | stop :: stops, text :: texts =>
    match Rgb.read (String.ofList text) with
    | .error refusal => (.error refusal, stop :: stops)
    | .ok color =>
      let (count, stops) := takeOver stops texts
      (count.map (· + 1), color :: stops)
  | stops, _ => (.ok 0, stops)

/-- The number of stops stays, wherever it ends. -/
theorem length_takeOver (stops : List Rgb) (texts : List (List Char)) :
    (takeOver stops texts).2.length = stops.length := by
  induction stops generalizing texts with
  | nil => cases texts <;> rfl
  | cons stop stops ih =>
    cases texts with
    | nil => rfl
    | cons text texts =>
      unfold takeOver
      cases Rgb.read (String.ofList text) with
      | error refusal => rfl
      | ok color => exact congrArg (· + 1) (ih texts)

/-- The palette with its leading stops overwritten by the run of a link, piece by piece between the
hyphens, and how many stops were overwritten. -/
def importLink (p : Palette) (link : List Char) : Except ColorRefusal Nat × Palette :=
  match PaletteLink.find? (Text.trim link) with
  | none => (.error .noPalette, p)
  | some run =>
    let taken := takeOver p.colors (Text.splitOn '-' run)
    (taken.1, ⟨taken.2, by
      rw [← List.length_pos_iff, length_takeOver]
      exact p.size_pos⟩)

theorem size_importLink (p : Palette) (link : List Char) : (p.importLink link).2.size = p.size := by
  unfold importLink
  cases PaletteLink.find? (Text.trim link) with
  | none => rfl
  | some run => exact length_takeOver p.colors _

end Palette

end TurtleCurves
