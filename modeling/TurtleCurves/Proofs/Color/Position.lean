import TurtleCurves.Proofs.Exact.Scalar
import TurtleCurves.Proofs.Geometry.Hull
import TurtleCurves.Color.Mode

namespace TurtleCurves

/-!
# Positions in a box

A colour by position needs a number from `0` to `1`.  In exact arithmetic the formulas give one for
every point of the box by themselves: nothing is cut off, and nothing is divided by zero.

* `Arith.quotient?` — a division that refuses a zero;
* `PositionAxis.position?` — the position of a point, with its divisions checked and not cut off;
* `fraction_of_mem` — the part of the way, also on no way at all;
* `hypot_center_le_reach`, `reach_pos` — no point of a box is farther from its middle than the
  reach, which is never zero;
* `PositionAxis.parameter_of_contains` — hence the position of every point of a box is in range.
-/

/-- The quotient of two scalars, refused when the divisor is a zero. -/
def Arith.quotient? {α : Type} [Arith α] (x y : α) : Option α :=
  if Arith.isZero y then none else some (x / y)

/-- A division by something positive is done. -/
theorem quotient?_of_pos {x y : ℝ} (hy : 0 < y) : Arith.quotient? x y = some (x / y) := by
  have hzero : Arith.isZero y = false := by
    rw [Arith.isZero, exact_zero, decide_eq_false (not_le_of_gt hy), Bool.and_false]
  rw [Arith.quotient?, hzero]
  rfl

namespace PositionAxis

section Checked

variable {α : Type} [Scalar α]

/-- The part of the way from `lo` to `hi` at which `x` lies, with its division checked. -/
def fraction? (lo hi x : α) : Option α :=
  if lo < hi then Arith.quotient? (x - lo) (hi - lo) else some 0

/-- The middle of a box, with its divisions checked. -/
def center? (b : Bounds α) : Option (Point α) :=
  (Arith.quotient? (b.minX + b.maxX) 2).bind fun x =>
    (Arith.quotient? (b.minY + b.maxY) 2).map fun y => ⟨x, y⟩

/-- The position of a point in a box as it comes out of the formula, not cut off at `1` and with all
divisions checked. -/
def position? (axis : PositionAxis) (p : Point α) (b : Bounds α) : Option α :=
  match axis with
  | horizontal => fraction? b.minX b.maxX p.x
  | vertical => fraction? b.minY b.maxY p.y
  | radial =>
    (center? b).bind fun c =>
      Arith.quotient? (Scalar.hypot (p.x - c.x) (p.y - c.y))
        (max (max (Scalar.hypot (b.maxX - c.x) (b.maxY - c.y))
          (Scalar.hypot (b.minX - c.x) (b.minY - c.y))) (0.001 : α))

end Checked

/-! ### Along a side -/

/-- The part of a way is in range by itself. -/
theorem fraction_of_mem {lo hi x : ℝ} (hlo : lo ≤ x) (hhi : x ≤ hi) :
    fraction? lo hi x = some (fraction lo hi x) ∧ 0 ≤ fraction lo hi x ∧ fraction lo hi x ≤ 1 := by
  by_cases hway : lo < hi
  · have hpos : 0 < hi - lo := sub_pos.mpr hway
    rw [fraction?, fraction, if_pos hway, if_pos hway, quotient?_of_pos hpos]
    refine ⟨rfl, div_nonneg (sub_nonneg.mpr hlo) hpos.le, (div_le_one hpos).mpr ?_⟩
    linarith
  · rw [fraction?, fraction, if_neg hway, if_neg hway, exact_zero]
    exact ⟨rfl, le_refl 0, zero_le_one⟩

/-! ### Outward from the middle -/

theorem hypot_nonneg (x y : ℝ) : 0 ≤ Scalar.hypot x y := Real.sqrt_nonneg _

/-- A vector with longer sides is longer. -/
theorem hypot_le_hypot {x y x' y' : ℝ} (hx : |x| ≤ x') (hy : |y| ≤ y') :
    Scalar.hypot x y ≤ Scalar.hypot x' y' := by
  have hxx : x * x ≤ x' * x' := by
    rw [← abs_mul_abs_self x]
    exact mul_self_le_mul_self (abs_nonneg x) hx
  have hyy : y * y ≤ y' * y' := by
    rw [← abs_mul_abs_self y]
    exact mul_self_le_mul_self (abs_nonneg y) hy
  exact Real.sqrt_le_sqrt (add_le_add hxx hyy)

/-- A number between two others is at most half their distance away from their middle. -/
theorem abs_sub_middle_le {lo hi x : ℝ} (hlo : lo ≤ x) (hhi : x ≤ hi) :
    |x - (lo + hi) / 2| ≤ hi - (lo + hi) / 2 := by
  rw [abs_le]
  constructor <;> linarith

/-- The centre of a box is computed without a division that fails. -/
theorem center?_eq (b : Bounds ℝ) : center? b = some b.center := by
  have htwo : (0 : ℝ) < 2 := two_pos
  rw [center?, exact_ofNat, quotient?_of_pos htwo, quotient?_of_pos htwo]
  rfl

/-- The distance that colours are spread over is positive. -/
theorem reach_pos (b : Bounds ℝ) : 0 < reach b := by
  have hfloor : (0 : ℝ) < 0.001 := by norm_num
  exact hfloor.trans_le (le_max_right _ _)

/-- No point of a box is farther from the middle than a corner. -/
theorem hypot_center_le_reach {p : Point ℝ} {b : Bounds ℝ} (h : b.Contains p) :
    Scalar.hypot (p.x - b.center.x) (p.y - b.center.y) ≤ reach b := by
  have hcorner : Scalar.hypot (p.x - b.center.x) (p.y - b.center.y) ≤
      Scalar.hypot (b.maxX - b.center.x) (b.maxY - b.center.y) :=
    hypot_le_hypot (abs_sub_middle_le h.minX_le h.le_maxX) (abs_sub_middle_le h.minY_le h.le_maxY)
  exact hcorner.trans ((le_max_left _ _).trans (le_max_left _ _))

/-! ### Every axis -/

/-- **Positions are in range.** The position of a point of a box comes out between `0` and `1`
without being cut off, however small or flat the box is. -/
theorem parameter_of_contains (axis : PositionAxis) {p : Point ℝ} {b : Bounds ℝ}
    (h : b.Contains p) :
    position? axis p b = some (parameter axis p b) ∧
      0 ≤ parameter axis p b ∧ parameter axis p b ≤ 1 := by
  cases axis with
  | horizontal => exact fraction_of_mem h.minX_le h.le_maxX
  | vertical => exact fraction_of_mem h.minY_le h.le_maxY
  | radial =>
    -- The reach is the distance to a corner, and nothing in the box is further from the centre.
    have hle : Scalar.hypot (p.x - b.center.x) (p.y - b.center.y) / reach b ≤ 1 :=
      (div_le_one (reach_pos b)).mpr (hypot_center_le_reach h)
    have hparameter : parameter .radial p b =
        Scalar.hypot (p.x - b.center.x) (p.y - b.center.y) / reach b := by
      rw [parameter, exact_one]
      exact min_eq_left hle
    rw [hparameter, position?, center?_eq]
    exact ⟨quotient?_of_pos (reach_pos b), div_nonneg (hypot_nonneg _ _) (reach_pos b).le, hle⟩

end PositionAxis

end TurtleCurves
