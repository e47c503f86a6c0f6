import TurtleCurves.Scalar

namespace TurtleCurves

/-!
# Exact whole numbers

An arithmetic may round, and still be exact on whole numbers that are not too large: binary floating
point with 53 digits is, up to `2 ^ 53`.  What is proved from that alone holds for every arithmetic
of this kind.

* `ExactWholes α` — which scalars stand for which whole numbers, and that the operations agree with
  those of the whole numbers as long as the result is within a bound;
* `ExactWholes.clamp_of_mem`, `ExactWholes.truncateNat_eq` — what the formulas share.
-/

/-- An arithmetic that is exact on whole numbers within a bound. -/
structure ExactWholes (α : Type) [Arith α] where
  /-- Whole numbers of up to this size are exact. -/
  bound : Nat
  /-- The channels of a colour are among them. -/
  byte_le : 255 ≤ bound
  /-- The scalar stands for the whole number; a zero of either sign stands for `0`. -/
  Stands : α → Int → Prop
  ofNat {n : Nat} : n ≤ bound → Stands (Arith.ofNat n) n
  add {x y : α} {a b : Int} :
    Stands x a → Stands y b → (a + b).natAbs ≤ bound → Stands (x + y) (a + b)
  sub {x y : α} {a b : Int} :
    Stands x a → Stands y b → (a - b).natAbs ≤ bound → Stands (x - y) (a - b)
  mul {x y : α} {a b : Int} :
    Stands x a → Stands y b → (a * b).natAbs ≤ bound → Stands (x * y) (a * b)
  /-- A division without a remainder. -/
  div {x y : α} {a b : Int} : Stands x (a * b) → Stands y b → b ≠ 0 → Stands (x / y) a
  lt {x y : α} {a b : Int} : Stands x a → Stands y b → (x < y ↔ a < b)
  floor {x : α} {a : Int} : Stands x a → Stands (Arith.floor x) a
  round {x : α} {a : Int} : Stands x a → Stands (Arith.round x) a
  truncate {x : α} {a : Int} : Stands x a → Arith.truncate x = a

namespace ExactWholes

variable {α : Type} [Arith α] (W : ExactWholes α) {x : α}

theorem zero : W.Stands (0 : α) 0 := W.ofNat (Nat.zero_le _)

theorem one : W.Stands (1 : α) 1 := by
  have hone : 1 ≤ W.bound := Nat.le_trans (by decide) W.byte_le
  exact W.ofNat hone

/-- The ends of `0 … 1` stay where they are when they are moved into it. -/
theorem clamp_of_mem {a : Int} (h : W.Stands x a) (hlo : 0 ≤ a) (hhi : a ≤ 1) :
    Arith.clamp 0 1 x = x := by
  have hnotBelow : ¬ x < 0 := by
    rw [W.lt h W.zero]
    omega
  have hnotAbove : ¬ (1 : α) < x := by
    rw [W.lt W.one h]
    omega
  rw [Arith.clamp, if_neg hnotBelow, if_neg hnotAbove]

theorem truncateNat_eq {n : Nat} (h : W.Stands x n) : Arith.truncateNat x = n := by
  rw [Arith.truncateNat, W.truncate h, Int.toNat_natCast]

end ExactWholes

end TurtleCurves
