import TurtleCurves.Proofs.Exact.Segment
import TurtleCurves.Proofs.View.Range

namespace TurtleCurves

/-!
# What magnifying keeps

In exact arithmetic a view is a mapping with an inverse, and magnifying it moves every shown point
along its ray from the anchor.  The anchor itself stays.

* `toScreen_toCanvas`, `toCanvas_toScreen` — the mapping and its inverse;
* `InRange.scale_pos`, `InRange.performAll` — a view that begins within the limits of magnification
  has a positive scale after every list of operations;
* `toScreen_zoom` — magnifying, point by point;
* `toScreen_zoom_anchor`, `toScreen_wheel_anchor`, `toScreen_pinchMove_anchor` — what is under the
  anchor is shown there afterwards;
* `anchor_performAll` — all of this along every history of a view.
-/

namespace Viewport

variable {v : Viewport ℝ}

/-! ### The mapping and its inverse -/

/-- What is shown at a place is shown there. -/
theorem toScreen_toCanvas (h : v.scale ≠ 0) (s : Point ℝ) : v.toScreen (v.toCanvas s) = s := by
  have hx : v.scale * ((s.x - v.center.x - v.offset.x) / v.scale) =
      s.x - v.center.x - v.offset.x := mul_div_cancel₀ _ h
  have hy : v.scale * ((s.y - v.center.y - v.offset.y) / v.scale) =
      s.y - v.center.y - v.offset.y := mul_div_cancel₀ _ h
  simp only [toScreen, toCanvas, add_sub_cancel_left, hx, hy]
  cases s
  simp only [Point.mk.injEq]
  constructor <;> ring

/-- A shown point is found again where it came from. -/
theorem toCanvas_toScreen (h : v.scale ≠ 0) (p : Point ℝ) : v.toCanvas (v.toScreen p) = p := by
  have hback (c o x : ℝ) : c + (c + o + v.scale * (x - c) - c - o) / v.scale = x := by
    have hcancel : c + o + v.scale * (x - c) - c - o = v.scale * (x - c) := by ring
    rw [hcancel, mul_div_cancel_left₀ _ h]
    ring
  simp only [toScreen, toCanvas, hback]

/-! ### Positive scales -/

namespace InRange

/-- A scale within the limits is positive. -/
theorem scale_pos (h : v.InRange) : 0 < v.scale := by
  have hmin : (0 : ℝ) < minScale := by
    rw [exact_minScale]
    norm_num
  exact lt_of_lt_of_le hmin h.min_le

theorem scale_ne_zero (h : v.InRange) : v.scale ≠ 0 := h.scale_pos.ne'

/-- **No history leaves the limits.** -/
theorem performAll (h : v.InRange) (gs : List (Gesture ℝ)) : (v.performAll gs).InRange := by
  induction gs generalizing v with
  | nil => exact h
  | cons g gs ih => exact ih (h.perform g)

end InRange

/-! ### Magnifying -/

/-- Magnifying moves every shown point along its ray from the anchor, by the ratio of the scales. -/
theorem toScreen_zoom (h : v.scale ≠ 0) (anchor : Point ℝ) (factor : ℝ) (p : Point ℝ) :
    (v.zoom anchor factor).toScreen p =
      anchor.toward (v.toScreen p) ((v.zoom anchor factor).scale / v.scale) := by
  -- Whatever the clamped scale is, the offset is computed from its ratio to the old one.
  obtain ⟨r, hr⟩ : ∃ r, (v.zoom anchor factor).scale = r * v.scale :=
    ⟨(v.zoom anchor factor).scale / v.scale, (div_mul_cancel₀ _ h).symm⟩
  have hratio : (v.zoom anchor factor).scale / v.scale = r := by
    rw [hr, mul_div_cancel_right₀ _ h]
  have hoffset : (v.zoom anchor factor).offset =
      ⟨anchor.x - v.center.x - (anchor.x - v.center.x - v.offset.x) * r,
        anchor.y - v.center.y - (anchor.y - v.center.y - v.offset.y) * r⟩ := by
    rw [← hratio]
    rfl
  have hcenter : (v.zoom anchor factor).center = v.center := rfl
  rw [hratio]
  simp only [toScreen, Point.toward, hoffset, hcenter, hr, Point.mk.injEq]
  constructor <;> ring

/-- What is under the anchor stays there, also where the scale meets its limits. -/
theorem toScreen_zoom_anchor (h : v.scale ≠ 0) (anchor : Point ℝ) (factor : ℝ) :
    (v.zoom anchor factor).toScreen (v.toCanvas anchor) = anchor := by
  rw [toScreen_zoom h, toScreen_toCanvas h]
  simp [Point.toward]

/-- So it does under the wheel, which may also change nothing. -/
theorem toScreen_wheel_anchor (h : v.scale ≠ 0) (anchor : Point ℝ) (delta : ℝ) :
    (v.wheel anchor delta).toScreen (v.toCanvas anchor) = anchor := by
  unfold wheel
  split
  · exact toScreen_toCanvas h anchor
  · exact toScreen_zoom_anchor h anchor _

/-- So does the middle of two fingers that pinch. -/
theorem toScreen_pinchMove_anchor (h : v.scale ≠ 0) (a b : Point ℝ) :
    (v.pinchMove a b).toScreen (v.toCanvas (a.midpoint b)) = a.midpoint b := by
  -- The distance that a sample leaves behind is no part of the mapping.
  by_cases hknown : @OfNat.ofNat ℝ 0 (Arith.instOfNat 0) < v.span
  · simp only [pinchMove, if_pos hknown]
    exact toScreen_zoom_anchor h (a.midpoint b) _
  · simp only [pinchMove, if_neg hknown]
    exact toScreen_toCanvas h (a.midpoint b)

/-- **Magnifying keeps the anchor along every history.** After any list of operations on a new view
the scale is within its limits, and the mapping and its inverse undo each other.  Magnifying by any
factor then multiplies the scale as far as the limits allow, and what was under the anchor is shown
there still; so it is after a notch of the wheel, and after a sample of a pinch, whose anchor is the
middle of the fingers. -/
theorem anchor_performAll (width height : ℝ) (gs : List (Gesture ℝ)) :
    let v := (ofSize width height).performAll gs
    (0.05 ≤ v.scale ∧ v.scale ≤ 100) ∧
      (∀ p, v.toCanvas (v.toScreen p) = p) ∧ (∀ s, v.toScreen (v.toCanvas s) = s) ∧
      (∀ anchor factor,
        (v.perform (.zoom anchor factor)).scale = Arith.clamp 0.05 100 (v.scale * factor) ∧
          (v.perform (.zoom anchor factor)).toScreen (v.toCanvas anchor) = anchor) ∧
      (∀ anchor delta, (v.perform (.wheel anchor delta)).toScreen (v.toCanvas anchor) = anchor) ∧
      (∀ a b, (v.perform (.pinchMove a b)).toScreen (v.toCanvas (a.midpoint b)) =
        a.midpoint b) := by
  intro v
  have hrange : v.InRange := (InRange.ofSize width height).performAll gs
  -- The least scale is positive, so that places can be taken back to the canvas.
  have hscale : v.scale ≠ 0 := hrange.scale_ne_zero
  refine ⟨⟨hrange.min_le, hrange.le_max⟩, toCanvas_toScreen hscale, toScreen_toCanvas hscale, ?_,
    toScreen_wheel_anchor hscale, toScreen_pinchMove_anchor hscale⟩
  intro anchor factor
  exact ⟨rfl, toScreen_zoom_anchor hscale anchor factor⟩

end Viewport

end TurtleCurves
