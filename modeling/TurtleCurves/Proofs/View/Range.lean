import TurtleCurves.Proofs.Exact.Scalar
import TurtleCurves.View.Viewport

namespace TurtleCurves

/-!
# The range of magnifications

In exact arithmetic no operation takes a view out of its limits.

* `Arith.le_clamp`, `Arith.clamp_le`, `Arith.clamp_of_mem`, `Arith.clamp_of_inside` — a number
  moved into an interval;
* `Viewport.exact_minScale`, `Viewport.exact_maxScale` — the limits;
* `Viewport.InRange` — the scale is within the limits of magnification;
* `InRange.perform` — every operation keeps that;
* `InRange.scale_zoom_one` — magnifying once leaves the scale as it is.
-/

namespace Arith

variable {lo hi x : ℝ}

/-- A number in the interval is not moved. -/
theorem clamp_of_mem (hlo : lo ≤ x) (hhi : x ≤ hi) : clamp lo hi x = x := by
  rw [clamp, if_neg (not_lt.mpr hlo), if_neg (not_lt.mpr hhi)]

/-- A number that comes out clear of both ends has not been moved. -/
theorem clamp_of_inside (hlo : lo < clamp lo hi x) (hhi : clamp lo hi x < hi) :
    clamp lo hi x = x := by
  have hge : ¬ x < lo := fun hbelow => by
    rw [clamp, if_pos hbelow] at hlo
    exact lt_irrefl lo hlo
  have hle : ¬ hi < x := fun habove => by
    rw [clamp, if_neg hge, if_pos habove] at hhi
    exact lt_irrefl hi hhi
  exact clamp_of_mem (not_lt.mp hge) (not_lt.mp hle)

/-- What comes out is not below the interval. -/
theorem le_clamp (h : lo ≤ hi) : lo ≤ clamp lo hi x := by
  unfold clamp
  split
  · exact le_refl lo
  · split
    · exact h
    · next hlo _ => exact not_lt.mp hlo

/-- Nor is it above. -/
theorem clamp_le (h : lo ≤ hi) : clamp lo hi x ≤ hi := by
  unfold clamp
  split
  · exact h
  · split
    · exact le_refl hi
    · next _ hhi => exact not_lt.mp hhi

end Arith

namespace Viewport

/-- A view is made smaller at most twenty times. -/
theorem exact_minScale : (minScale : ℝ) = 1 / 20 := by
  unfold minScale
  norm_num

/-- It is magnified at most a hundred times. -/
theorem exact_maxScale : (maxScale : ℝ) = 100 := rfl

theorem minScale_le_one : (minScale : ℝ) ≤ 1 := by
  rw [exact_minScale]
  norm_num

theorem one_le_maxScale : (1 : ℝ) ≤ maxScale := by
  rw [exact_maxScale]
  norm_num

theorem minScale_le_maxScale : (minScale : ℝ) ≤ maxScale :=
  minScale_le_one.trans one_le_maxScale

/-- The scale is within the limits of magnification. -/
structure InRange (v : Viewport ℝ) : Prop where
  min_le : minScale ≤ v.scale
  le_max : v.scale ≤ maxScale

namespace InRange

variable {v w : Viewport ℝ}

theorem congr (h : v.InRange) (hscale : w.scale = v.scale) : w.InRange :=
  ⟨hscale ▸ h.min_le, hscale ▸ h.le_max⟩

/-- A fresh view has its original size. -/
theorem ofSize (width height : ℝ) : (ofSize width height : Viewport ℝ).InRange := by
  refine ⟨?_, ?_⟩ <;> simp only [Viewport.ofSize, exact_one]
  · exact minScale_le_one
  · exact one_le_maxScale

/-- A magnification is moved into the limits. -/
theorem zoom (v : Viewport ℝ) (anchor : Point ℝ) (factor : ℝ) : (v.zoom anchor factor).InRange :=
  ⟨Arith.le_clamp minScale_le_maxScale, Arith.clamp_le minScale_le_maxScale⟩

/-- Magnifying by `1` changes nothing within the limits. -/
theorem scale_zoom_one (h : v.InRange) (anchor : Point ℝ) : (v.zoom anchor 1).scale = v.scale := by
  show Arith.clamp minScale maxScale (v.scale * 1) = v.scale
  rw [mul_one, Arith.clamp_of_mem h.min_le h.le_max]

/-- **No operation leaves the limits.** -/
theorem perform (h : v.InRange) (g : Gesture ℝ) : (v.perform g).InRange := by
  cases g with
  | zoom anchor factor => exact zoom v anchor factor
  -- Only the wheel, a pinch and a magnification touch the scale; a reset sets it anew.
  | wheel anchor delta =>
    simp only [Viewport.perform, wheel]
    split
    · exact h
    · exact zoom v anchor _
  | panStart p => exact h.congr rfl
  | panMove p =>
    simp only [Viewport.perform, panMove]
    split
    · exact h
    · exact h.congr rfl
  | panEnd => exact h.congr rfl
  | pinchStart a b => exact h.congr rfl
  | pinchMove a b =>
    simp only [Viewport.perform, pinchMove]
    split
    · exact (zoom v (a.midpoint b) (a.distance b / v.span)).congr rfl
    · exact h.congr rfl
  | pinchEnd remaining => cases remaining <;> exact h.congr rfl
  | resize width height => exact h.congr rfl
  | reset => exact ofSize v.width v.height

end InRange

end Viewport

end TurtleCurves
