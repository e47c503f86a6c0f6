import Mathlib.Analysis.SpecialFunctions.Trigonometric.Basic
import TurtleCurves.Scalar

namespace TurtleCurves

/-!
# Exact arithmetic

The real numbers as scalars.  Every formula of the library is written over a type of scalars, so
that a statement about a drawing in exact arithmetic is a statement about the very definitions
that run, read over `ℝ`.

* `instArithReal`, `instScalarReal` — the two instances.  Nothing is rounded: `Scalar.narrow` is
  the identity, every number is finite, and only the functions that ask for a whole number
  (`floor`, `ceil`, `round`, `truncate`) leave out a fraction.  A real number has no finite
  written form, and its text is left empty;
* `exact_zero`, `exact_one`, `exact_ofNat` — the numerals of `Arith` are the numerals of `ℝ`;
* `exact_abs`, `exact_sqrt`, `exact_hypot` — lengths;
* `exact_floor`, `exact_ceil`, `truncate_intCast` — rounding to whole numbers;
* `truncate_max_zero`, `truncate_min_last` — whole numbers cut off at the ends of `0 … n - 1`;
* `mem_Icc_of_part` — what is on the way between two numbers is between them;
* `radians_neg` — degrees as radians, additively.
-/

noncomputable instance instArithReal : Arith ℝ where
  ofNat n := n
  decLt := fun _ _ => Classical.propDecidable _
  decLe := fun _ _ => Classical.propDecidable _
  floor x := ⌊x⌋
  ceil x := ⌈x⌉
  round x := if 0 ≤ x then ⌊x + 1 / 2⌋ else ⌈x - 1 / 2⌉
  truncate x := if 0 ≤ x then ⌊x⌋ else ⌈x⌉

noncomputable instance instScalarReal : Scalar ℝ where
  pi := Real.pi
  sin := Real.sin
  cos := Real.cos
  sqrt := Real.sqrt
  hypot x y := Real.sqrt (x * x + y * y)
  narrow := id
  isFinite _ := true
  text _ := ""
  fixed _ _ := ""

/-! ### Numerals -/

@[simp] theorem exact_zero : @OfNat.ofNat ℝ 0 (Arith.instOfNat 0) = 0 := Nat.cast_zero

@[simp] theorem exact_one : @OfNat.ofNat ℝ 1 (Arith.instOfNat 1) = 1 := Nat.cast_one

@[simp] theorem exact_ofNat (n : ℕ) [n.AtLeastTwo] :
    @OfNat.ofNat ℝ n (Arith.instOfNat n) = OfNat.ofNat n := rfl

theorem exact_half : (0.5 : ℝ) = 1 / 2 := by norm_num

@[simp] theorem exact_count (n : ℕ) : (Arith.ofNat n : ℝ) = n := rfl

/-! ### Lengths -/

@[simp] theorem exact_abs (x : ℝ) : Arith.abs x = |x| := rfl

@[simp] theorem exact_sqrt (x : ℝ) : Scalar.sqrt x = Real.sqrt x := rfl

@[simp] theorem exact_hypot (x y : ℝ) : Scalar.hypot x y = Real.sqrt (x * x + y * y) := rfl

/-! ### Whole numbers -/

@[simp] theorem exact_floor (x : ℝ) : Arith.floor x = ⌊x⌋ := rfl

@[simp] theorem exact_ceil (x : ℝ) : Arith.ceil x = ⌈x⌉ := rfl

/-- A whole number is its own whole part. -/
@[simp] theorem truncate_intCast (n : ℤ) : Arith.truncate (n : ℝ) = n := by
  show (if (0 : ℝ) ≤ n then ⌊(n : ℝ)⌋ else ⌈(n : ℝ)⌉) = n
  rw [Int.floor_intCast, Int.ceil_intCast, ite_self]

/-- A whole number cut off at zero. -/
theorem truncate_max_zero (z : ℤ) : Arith.truncate (max (z : ℝ) 0) = max z 0 := by
  rw [← truncate_intCast (max z 0), Int.cast_max, Int.cast_zero]

/-- A whole number cut off at the last one of `n`. -/
theorem truncate_min_last (z : ℤ) (n : ℕ) :
    Arith.truncate (min (z : ℝ) ((n : ℝ) - 1)) = min z ((n : ℤ) - 1) := by
  rw [← truncate_intCast (min z _), Int.cast_min, Int.cast_sub, Int.cast_natCast, Int.cast_one]

/-! ### Between two numbers -/

/-- A number on the way between two others lies between them. -/
theorem mem_Icc_of_part {a b t : ℝ} (ht : 0 ≤ t) (ht' : t ≤ 1) :
    a + (b - a) * t ∈ Set.Icc (min a b) (max a b) := by
  -- The way leads up or down.
  rcases le_total a b with hab | hab
  · rw [min_eq_left hab, max_eq_right hab]
    exact ⟨by nlinarith, by nlinarith⟩
  · rw [min_eq_right hab, max_eq_left hab]
    exact ⟨by nlinarith, by nlinarith⟩

/-! ### Circles -/

@[simp] theorem exact_sin (x : ℝ) : Scalar.sin x = Real.sin x := rfl

@[simp] theorem exact_cos (x : ℝ) : Scalar.cos x = Real.cos x := rfl

/-- Turning back by an angle is turning by the opposite angle. -/
@[simp] theorem radians_neg (degrees : ℝ) :
    Scalar.radians (-degrees) = -Scalar.radians degrees := by
  unfold Scalar.radians
  ring

end TurtleCurves
