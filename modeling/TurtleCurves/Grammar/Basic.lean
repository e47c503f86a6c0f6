import TurtleCurves.Geometry.Point
import TurtleCurves.Grammar.Word
import TurtleCurves.SortedMap

namespace TurtleCurves

/-!
# Grammars

A grammar grows words by replacing every letter at once, and says how the turtle draws them.

* `Rules`, `Rules.apply` — one expansion per letter; a letter without one stays;
* `Grammar` — the seed word, the rules, the turtle's measures and where drawing starts;
* `Grammar.check` — refuses what cannot be drawn sensibly, with the `Grammar.Fault` found
  first.
-/

/-! ### Expansion -/

/-- One expansion per letter. -/
abbrev Rules := SortedMap Char Word

namespace Rules

/-- What a letter becomes in one step. -/
def expand (rules : Rules) (c : Char) : Word := (rules.get? c).getD [c]

/-- One step: every letter of the word is expanded at once. -/
def apply (rules : Rules) (w : Word) : Word := w.flatMap rules.expand

@[simp] theorem apply_nil (rules : Rules) : rules.apply [] = [] := rfl

@[simp] theorem apply_append (rules : Rules) (v w : Word) :
    rules.apply (v ++ w) = rules.apply v ++ rules.apply w := List.flatMap_append

/-- The word after `n` steps. -/
def derive (rules : Rules) (w : Word) : Nat → Word
  | 0 => w
  | n + 1 => rules.apply (derive rules w n)

end Rules

/-! ### Grammars -/

/-- A seed word with rules, and the measures of the turtle that draws its descendants. -/
structure Grammar (α : Type) where
  /-- The word that growth starts from. -/
  seed : Word
  rules : Rules
  /-- The angle of one turn, in degrees. -/
  angle : α
  /-- The length of one stroke, in pixels. -/
  length : α
  /-- The first heading, in degrees. -/
  startAngle : α
  /-- Where drawing starts, as a fraction of the canvas. -/
  origin : Point α
  deriving DecidableEq

namespace Grammar

variable {α : Type}

/-- The letters that can ever draw: those of the seed and of the expansions. -/
def alphabet (g : Grammar α) : List Char := Word.letters (g.seed :: g.rules.values)

/-! ### What can be drawn -/

/-- A measure that cannot be drawn with. -/
inductive Fault (α : Type) where
  /-- The stroke is not of positive finite length. -/
  | length (value : α)
  /-- The turn is not finite. -/
  | angle (value : α)
  /-- The first heading is not finite. -/
  | startAngle (value : α)
  /-- The start lies outside the canvas. -/
  | origin (value : Point α)
  deriving DecidableEq, Repr

/-- The wording of a fault. -/
def Fault.message [Scalar α] : Fault α → String
  | .length v => "Segment length must be a positive number, got " ++ Scalar.text v
  | .angle v => "Angle must be finite, got " ++ Scalar.text v
  | .startAngle v => "Start angle must be finite, got " ++ Scalar.text v
  | .origin p =>
    "Origin fraction must lie in [0, 1], got (" ++ Scalar.text p.x ++ ", " ++ Scalar.text p.y ++ ")"

/-- `x` is a fraction from `0` to `1`. -/
def isFraction [Arith α] (x : α) : Bool := (0 : α) ≤ x && x ≤ (1 : α)

/-- Accepts a grammar whose measures can be drawn with. -/
def check [Scalar α] (g : Grammar α) : Except (Fault α) Unit :=
  if !Scalar.isFinite g.length || g.length ≤ (0 : α) then .error (.length g.length)
  else if !Scalar.isFinite g.angle then .error (.angle g.angle)
  else if !Scalar.isFinite g.startAngle then .error (.startAngle g.startAngle)
  else if !isFraction g.origin.x || !isFraction g.origin.y then .error (.origin g.origin)
  else .ok ()

end Grammar

end TurtleCurves
