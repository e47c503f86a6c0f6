import TurtleCurves.Geometry.Affine
import TurtleCurves.Proofs.Exact.Scalar

namespace TurtleCurves.Affine

/-!
# Exact affine maps

Composition of affine maps over `ℝ`.

* `apply_after` — the composition maps a point by the inner map first;
* `after_assoc`, `identity_after`, `after_identity` — the maps form a monoid;
* `shift_after_shift`, `rotation_after_rotation` — shifts and turns add up;
* `rotation_after_shift` — a shift on the local side of a turn is the turned shift on its outer
  side;
* `ScalesBy` — a map that keeps shapes and multiplies lengths by a known factor, and how the factors
  of a composition multiply.
-/

/-- The inner map comes first. -/
@[simp] theorem apply_after (outer inner : Affine ℝ) (p : Point ℝ) :
    (outer.after inner).apply p = outer.apply (inner.apply p) := by
  simp only [after, apply, Point.mk.injEq]
  constructor <;> ring

/-- A shift adds to both coordinates. -/
@[simp] theorem apply_shift (dx dy : ℝ) (p : Point ℝ) :
    (shift dx dy).apply p = ⟨p.x + dx, p.y + dy⟩ := by
  simp [shift, apply]

/-- A scaling multiplies both. -/
@[simp] theorem apply_scaling (factor : ℝ) (p : Point ℝ) :
    (scaling factor).apply p = ⟨factor * p.x, factor * p.y⟩ := by
  simp [scaling, apply]

/-- Composing maps is associative. -/
theorem after_assoc (l m n : Affine ℝ) : (l.after m).after n = l.after (m.after n) := by
  simp only [after, Affine.mk.injEq]
  refine ⟨?_, ?_, ?_, ?_, ?_, ?_⟩ <;> ring

@[simp] theorem identity_after (m : Affine ℝ) : identity.after m = m := by
  simp [after, identity]

@[simp] theorem after_identity (m : Affine ℝ) : m.after identity = m := by
  simp [after, identity]

/-! ### Shifts and turns -/

@[simp] theorem shift_zero : (shift 0 0 : Affine ℝ) = identity := by
  simp [shift, identity]

/-- **Shifts add up.** -/
theorem shift_after_shift (dx dy ex ey : ℝ) :
    (shift dx dy).after (shift ex ey) = shift (dx + ex) (dy + ey) := by
  simp only [after, shift, exact_zero, exact_one, Affine.mk.injEq]
  refine ⟨?_, ?_, ?_, ?_, ?_, ?_⟩ <;> ring

/-- **Turns add up.** The addition theorems of sine and cosine, entry by entry. -/
theorem rotation_after_rotation (x y : ℝ) :
    (rotation x).after (rotation y) = rotation (x + y) := by
  simp only [after, rotation, exact_sin, exact_cos, exact_zero, Affine.mk.injEq,
    Real.sin_add, Real.cos_add]
  refine ⟨?_, trivial, ?_, ?_, ?_, ?_⟩ <;> ring

/-- A shift along the local axis of a turned map is a shift in the direction it is turned to. -/
theorem rotation_after_shift (angle length : ℝ) :
    (rotation angle).after (shift length 0) =
      (shift (Real.cos angle * length) (Real.sin angle * length)).after (rotation angle) := by
  simp only [after, rotation, shift, exact_sin, exact_cos, exact_zero, exact_one, Affine.mk.injEq]
  refine ⟨?_, ?_, ?_, ?_, ?_, ?_⟩ <;> ring

/-! ### Maps that keep shapes -/

/-- The map turns, shifts and scales by the factor `f`, and does nothing else. -/
structure ScalesBy (m : Affine ℝ) (f : ℝ) : Prop where
  same : m.a = m.d
  opposite : m.b = -m.c
  factor : m.scaleFactor = |f|

namespace ScalesBy

variable {m n : Affine ℝ} {f g : ℝ}

/-- For such a map the determinant is a sum of squares. -/
theorem of_sq (hsame : m.a = m.d) (hopposite : m.b = -m.c) (hsq : m.a ^ 2 + m.b ^ 2 = f ^ 2) :
    m.ScalesBy f := by
  refine ⟨hsame, hopposite, ?_⟩
  have hdet : m.a * m.d - m.b * m.c = f ^ 2 := by
    rw [← hsq, ← hsame, hopposite]
    ring
  rw [scaleFactor, exact_sqrt, exact_abs, hdet, abs_sq, Real.sqrt_sq_eq_abs]

/-- The squares of its entries add up to that of its factor. -/
theorem sq (h : m.ScalesBy f) : m.a ^ 2 + m.b ^ 2 = f ^ 2 := by
  have hdet : m.a * m.d - m.b * m.c = m.a ^ 2 + m.b ^ 2 := by
    rw [← h.same, h.opposite]
    ring
  have hfactor := h.factor
  rw [scaleFactor, exact_sqrt, exact_abs, hdet, abs_of_nonneg (by positivity)] at hfactor
  -- The root of the determinant is the factor, up to its sign.
  rw [← Real.sq_sqrt (show 0 ≤ m.a ^ 2 + m.b ^ 2 by positivity), hfactor, sq_abs]

/-- **Factors multiply.** -/
theorem after (hm : m.ScalesBy f) (hn : n.ScalesBy g) : (m.after n).ScalesBy (f * g) := by
  refine of_sq ?_ ?_ ?_
  · simp only [Affine.after, hm.same, hn.same, hm.opposite, hn.opposite]
    ring
  · simp only [Affine.after, hm.same, hn.same, hm.opposite, hn.opposite]
    ring
  -- The squares multiply, as those of complex numbers do.
  · rw [mul_pow, ← hm.sq, ← hn.sq]
    simp only [Affine.after, hm.same, hn.same, hm.opposite, hn.opposite]
    ring

theorem identity : (identity : Affine ℝ).ScalesBy 1 := by
  apply of_sq <;> simp [Affine.identity]

theorem shift (dx dy : ℝ) : (shift dx dy).ScalesBy 1 := by
  apply of_sq <;> simp [Affine.shift]

theorem rotation (angle : ℝ) : (rotation angle).ScalesBy 1 := by
  apply of_sq <;> simp [Affine.rotation]

/-- A scaling multiplies lengths by its factor. -/
theorem scaling (factor : ℝ) : (scaling factor).ScalesBy factor := by
  apply of_sq <;> simp [Affine.scaling]

end ScalesBy

end TurtleCurves.Affine
