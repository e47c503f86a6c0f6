namespace TurtleCurves

/-!
# Scalars

The arithmetic that curves are drawn with, as a parameter.  Every formula of the library is
written over a type of scalars; binary floating point runs it, and an exact arithmetic can
stand in its place wherever a statement is about exact numbers.

* `Arith α` — ordered arithmetic with rounding to whole numbers;
* `Scalar α` — in addition the functions of plane geometry and a written form;
* `Arith.clamp`, `Arith.abs`, `Arith.isZero`, `Scalar.radians` — what the formulas share.

No law is assumed of the operations: order of evaluation is part of every definition.
-/

/-- Ordered arithmetic with rounding to whole numbers. -/
class Arith (α : Type) extends Add α, Sub α, Mul α, Div α, Neg α, Min α, Max α, LT α, LE α,
    OfScientific α where
  /-- The scalar that counts `n` things. -/
  ofNat : Nat → α
  /-- `<` is decided. -/
  decLt : ∀ x y : α, Decidable (x < y)
  /-- `≤` is decided. -/
  decLe : ∀ x y : α, Decidable (x ≤ y)
  /-- The largest whole number that is not above `x`. -/
  floor : α → α
  /-- The least whole number that is not below `x`. -/
  ceil : α → α
  /-- The nearest whole number, halves away from zero. -/
  round : α → α
  /-- The whole part of `x`, toward zero; an arithmetic with a limited range stays inside it,
  and a scalar that is no number has the whole part `0`. -/
  truncate : α → Int

instance Arith.instDecidableLT {α : Type} [Arith α] (x y : α) : Decidable (x < y) :=
  Arith.decLt x y

instance Arith.instDecidableLE {α : Type} [Arith α] (x y : α) : Decidable (x ≤ y) :=
  Arith.decLe x y

/-- Numerals stand for the scalars that count. -/
instance (priority := low) Arith.instOfNat {α : Type} [Arith α] (n : Nat) : OfNat α n :=
  ⟨Arith.ofNat n⟩

namespace Arith

variable {α : Type} [Arith α]

/-- `x` moved to the nearer end of `lo … hi` when it lies outside; what is not comparable
stays as it is. -/
def clamp (lo hi x : α) : α :=
  if x < lo then lo else if hi < x then hi else x

/-- The distance of `x` from zero. -/
def abs (x : α) : α := max x (-x)

/-- `x` is a zero of either sign. -/
def isZero (x : α) : Bool := (0 : α) ≤ x && x ≤ (0 : α)

/-- The whole part of `x`, nothing below zero. -/
def truncateNat (x : α) : Nat := (truncate x).toNat

end Arith

/-- Scalars of plane geometry: roots, circles, and a written form. -/
class Scalar (α : Type) extends Arith α where
  /-- The ratio of a circle to its diameter. -/
  pi : α
  /-- Sine of an angle in radians. -/
  sin : α → α
  /-- Cosine of an angle in radians. -/
  cos : α → α
  /-- Square root. -/
  sqrt : α → α
  /-- The length of the vector `(x, y)`. -/
  hypot : α → α → α
  /-- The nearest scalar that a screen coordinate can hold. -/
  narrow : α → α
  /-- `x` is a number and not an infinity. -/
  isFinite : α → Bool
  /-- The written form of a scalar. -/
  text : α → String
  /-- The written form with a given number of decimal places. -/
  fixed : Nat → α → String

namespace Scalar

variable {α : Type} [Scalar α]

/-- Degrees as radians. -/
def radians (degrees : α) : α := degrees * (pi / (180 : α))

end Scalar

end TurtleCurves
