import TurtleCurves.Proofs.View.Anchor

namespace TurtleCurves

/-!
# Magnifying several times

In exact arithmetic it does not matter in how many steps a view is magnified about one anchor: the
offset depends on the scale alone, so that the last scale decides, clamped or not. A pinch is such a
magnification. It keeps the quotient of the scale and the distance of the fingers, which makes the
first and the last distance decide.

* `Viewport.rescale` — a view at another scale, about an anchor; `rescale_rescale`: the last one
  counts;
* `performAll_zooms` — magnifying by each factor of a list;
* `Viewport.knowing`, `pinchMove_of_pos` — a sample of a pinch, and the distance it leaves behind;
* `Viewport.Steady` — samples of a pinch with one midpoint, clear of the limits;
* `performAll_samples` — a pinch, by induction on its samples;
* `performAll_eq_zoom` — both are one magnification.
-/

namespace Viewport

variable {v : Viewport ℝ} {anchor : Point ℝ}

/-! ### Scales about an anchor -/

/-- The view at the scale `s`, with what is under the anchor where it was. -/
noncomputable def rescale (v : Viewport ℝ) (anchor : Point ℝ) (s : ℝ) : Viewport ℝ :=
  let px := anchor.x - v.center.x
  let py := anchor.y - v.center.y
  { v with
    offset := ⟨px - (px - v.offset.x) * (s / v.scale), py - (py - v.offset.y) * (s / v.scale)⟩
    scale := s }

theorem zoom_eq_rescale (v : Viewport ℝ) (anchor : Point ℝ) (factor : ℝ) :
    v.zoom anchor factor =
      v.rescale anchor (Arith.clamp minScale maxScale (v.scale * factor)) := rfl

@[simp] theorem scale_rescale (v : Viewport ℝ) (anchor : Point ℝ) (s : ℝ) :
    (v.rescale anchor s).scale = s := rfl

/-- The scale that a view has already. -/
theorem rescale_self (h : v.scale ≠ 0) (anchor : Point ℝ) : v.rescale anchor v.scale = v := by
  simp only [rescale, div_self h, mul_one, sub_sub_cancel]

/-- **The last scale counts.** -/
theorem rescale_rescale {s : ℝ} (hs : s ≠ 0) (v : Viewport ℝ) (anchor : Point ℝ) (t : ℝ) :
    (v.rescale anchor s).rescale anchor t = v.rescale anchor t := by
  have hratio : s / v.scale * (t / s) = t / v.scale := by
    rw [mul_comm, div_mul_div_cancel₀ hs]
  have hoffset (p o : ℝ) :
      p - (p - (p - (p - o) * (s / v.scale))) * (t / s) = p - (p - o) * (t / v.scale) := by
    rw [sub_sub_cancel, mul_assoc, hratio]
  have hcenter : (v.rescale anchor s).center = v.center := rfl
  simp only [rescale] at hcenter ⊢
  simp only [hcenter, hoffset]

/-- Within the limits every scale is reached by one magnification. -/
theorem rescale_eq_zoom (h : v.scale ≠ 0) (anchor : Point ℝ) {s : ℝ} (hmin : minScale ≤ s)
    (hmax : s ≤ maxScale) : v.rescale anchor s = v.zoom anchor (s / v.scale) := by
  rw [zoom_eq_rescale, mul_div_cancel₀ s h, Arith.clamp_of_mem hmin hmax]

/-! ### A list of factors -/

/-- **Many factors.** Magnifying by one after the other leaves the view at the scale that comes out,
whatever the scales on the way were. -/
theorem performAll_zooms (h : v.InRange) (anchor : Point ℝ) (factors : List ℝ) :
    v.performAll (factors.map (.zoom anchor)) =
      v.rescale anchor (v.performAll (factors.map (.zoom anchor))).scale := by
  induction factors generalizing v with
  | nil => exact (rescale_self h.scale_ne_zero anchor).symm
  | cons factor factors ih =>
    have hnext : (v.zoom anchor factor).InRange := .zoom v anchor factor
    -- Rescaling twice about one anchor is rescaling once, to the later scale.
    calc v.performAll ((factor :: factors).map (.zoom anchor))
        = (v.zoom anchor factor).performAll (factors.map (.zoom anchor)) := rfl
      _ = (v.zoom anchor factor).rescale anchor
            ((v.zoom anchor factor).performAll (factors.map (.zoom anchor))).scale := ih hnext
      _ = v.rescale anchor
            ((v.zoom anchor factor).performAll (factors.map (.zoom anchor))).scale :=
          rescale_rescale hnext.scale_ne_zero v anchor _

/-! ### Pinches -/

/-- The same view, with a known distance of two fingers. -/
def knowing {α : Type} (v : Viewport α) (distance : α) : Viewport α := { v with span := distance }

/-- From a known distance the next one magnifies. -/
theorem pinchMove_of_pos {α : Type} [Scalar α] {v : Viewport α} (h : (0 : α) < v.span)
    (a b : Point α) :
    v.pinchMove a b = (v.zoom (a.midpoint b) (a.distance b / v.span)).knowing (a.distance b) := by
  simp only [pinchMove, if_pos h]
  rfl

/-- The samples of a pinch as operations. -/
def pinchMoves (samples : List (Point ℝ × Point ℝ)) : List (Gesture ℝ) :=
  samples.map fun p => .pinchMove p.1 p.2

/-- The samples keep one midpoint and never bring the fingers together, and none of them takes the
view to a limit of magnification. -/
structure Steady (v : Viewport ℝ) (middle : Point ℝ) (samples : List (Point ℝ × Point ℝ)) :
    Prop where
  midpoint : ∀ p ∈ samples, p.1.midpoint p.2 = middle
  apart : ∀ p ∈ samples, 0 < p.1.distance p.2
  inside : ∀ shown, shown ≠ [] → shown <+: samples →
    minScale < (v.performAll (pinchMoves shown)).scale ∧
      (v.performAll (pinchMoves shown)).scale < maxScale

theorem Steady.tail {p : Point ℝ × Point ℝ} {samples : List (Point ℝ × Point ℝ)}
    (h : v.Steady anchor (p :: samples)) : (v.pinchMove p.1 p.2).Steady anchor samples where
  midpoint q hq := h.midpoint q (List.mem_cons_of_mem p hq)
  apart q hq := h.apart q (List.mem_cons_of_mem p hq)
  inside shown _ hshown :=
    h.inside (p :: shown) (List.cons_ne_nil p shown) (List.cons_prefix_cons.mpr ⟨rfl, hshown⟩)

/-- **One sample.** The view comes to the scale that keeps its quotient with the distance. -/
theorem pinchMove_of_steady {p : Point ℝ × Point ℝ} {samples : List (Point ℝ × Point ℝ)}
    (hspan : 0 < v.span) (h : v.Steady anchor (p :: samples)) :
    v.pinchMove p.1 p.2 =
      (v.rescale anchor (v.scale / v.span * p.1.distance p.2)).knowing (p.1.distance p.2) := by
  have hpinch : v.pinchMove p.1 p.2 =
      (v.zoom anchor (p.1.distance p.2 / v.span)).knowing (p.1.distance p.2) := by
    rw [pinchMove_of_pos (exact_zero ▸ hspan), h.midpoint p List.mem_cons_self]
  -- Strictly between the limits the clamp has not acted, so the scale is the product.
  obtain ⟨hmin, hmax⟩ : minScale < (v.pinchMove p.1 p.2).scale ∧
      (v.pinchMove p.1 p.2).scale < maxScale := h.inside [p] (List.cons_ne_nil p []) ⟨samples, rfl⟩
  rw [hpinch] at hmin hmax
  have hscale : Arith.clamp minScale maxScale (v.scale * (p.1.distance p.2 / v.span)) =
      v.scale / v.span * p.1.distance p.2 := by
    rw [Arith.clamp_of_inside hmin hmax, div_mul_eq_mul_div, mul_div_assoc]
  rw [hpinch, zoom_eq_rescale, hscale]

/-- **A pinch.** The quotient of scale and distance stays, so the last distance decides. -/
theorem performAll_samples {samples : List (Point ℝ × Point ℝ)} (hscale : 0 < v.scale)
    (hspan : 0 < v.span) (h : v.Steady anchor samples) :
    let last := (samples.map fun p => p.1.distance p.2).getLastD v.span
    v.performAll (pinchMoves samples) =
      (v.rescale anchor (v.scale / v.span * last)).knowing last := by
  induction samples generalizing v with
  | nil =>
    show v = (v.rescale anchor (v.scale / v.span * v.span)).knowing v.span
    rw [div_mul_cancel₀ _ hspan.ne', rescale_self hscale.ne']
    rfl
  | cons p samples ih =>
    let d := p.1.distance p.2
    let s := v.scale / v.span * d
    have hd : 0 < d := h.apart p List.mem_cons_self
    have hs : 0 < s := mul_pos (div_pos hscale hspan) hd
    have hstep : v.pinchMove p.1 p.2 = (v.rescale anchor s).knowing d := pinchMove_of_steady hspan h
    -- The rest of the samples is steady for the view that this one leaves.
    have htail : ((v.rescale anchor s).knowing d).Steady anchor samples := hstep ▸ h.tail
    intro last
    calc v.performAll (pinchMoves (p :: samples))
        = (v.pinchMove p.1 p.2).performAll (pinchMoves samples) := rfl
      _ = ((v.rescale anchor s).rescale anchor (s / d * last)).knowing last := by
          rw [hstep, ih hs hd htail]
          simp only [last, List.map_cons, List.getLastD_cons]
          rfl
      _ = (v.rescale anchor (v.scale / v.span * last)).knowing last := by
          rw [rescale_rescale hs.ne', mul_div_cancel_right₀ _ hd.ne']

/-! ### One magnification instead -/

/-- **It does not matter in how many steps a view is magnified.** Magnifying about one anchor by
each factor of a list, clamped or not, is magnifying once, by the ratio of the scales after it and before
it. A pinch is magnifying once, by the ratio of the last distance of the fingers and the first, if
its samples keep their midpoint and are clear of the limits. -/
theorem performAll_eq_zoom (h : v.InRange) (anchor : Point ℝ) :
    (∀ factors : List ℝ, let w := v.performAll (factors.map (.zoom anchor))
      w = v.zoom anchor (w.scale / v.scale)) ∧
    ∀ a b samples, 0 < a.distance b → (v.pinchStart a b).Steady anchor samples →
      let last := samples.getLastD (a, b)
      v.performAll (.pinchStart a b :: pinchMoves samples) =
        (v.zoom anchor (last.1.distance last.2 / a.distance b)).pinchStart last.1 last.2 := by
  refine ⟨fun factors => ?_, fun a b samples hfirst hsteady => ?_⟩
  · intro w
    have hrange : w.InRange := h.performAll _
    rw [← rescale_eq_zoom h.scale_ne_zero anchor hrange.min_le hrange.le_max]
    exact performAll_zooms h anchor factors
  · intro last
    let s := v.scale / a.distance b * last.1.distance last.2
    have hlast : (samples.map fun p => p.1.distance p.2).getLastD (a.distance b) =
        last.1.distance last.2 := by
      rw [List.getLastD_eq_getLast?, List.getLast?_map]
      simp only [last, List.getLastD_eq_getLast?]
      cases samples.getLast? <;> rfl
    have hrun : v.performAll (.pinchStart a b :: pinchMoves samples) =
        (v.rescale anchor s).pinchStart last.1 last.2 := by
      have hsamples := performAll_samples (v := v.pinchStart a b) h.scale_pos hfirst hsteady
      have hspan : (v.pinchStart a b).span = a.distance b := rfl
      simp only [hspan, hlast] at hsamples
      exact hsamples
    have hrange : ((v.rescale anchor s).pinchStart last.1 last.2).InRange :=
      hrun ▸ h.performAll (.pinchStart a b :: pinchMoves samples)
    -- The run ends at a scale within the limits, so one zoom by the ratio reaches it unclamped.
    have hratio : s / v.scale = last.1.distance last.2 / a.distance b := by
      simp only [s]
      rw [div_mul_eq_mul_div, mul_div_assoc, mul_div_cancel_left₀ _ h.scale_ne_zero]
    rw [hrun, ← hratio,
      ← rescale_eq_zoom h.scale_ne_zero anchor (s := s) hrange.min_le hrange.le_max]

/-- Magnifying by two hundred meets the limit, and halving after that leaves fifty. Two fingers that
are forty apart, then eighty and then sixty, magnify by three halves. -/
theorem performAll_eq_zoom_clamped :
    let v : Viewport ℝ := ofSize 200 200
    let anchor : Point ℝ := ⟨150, 100⟩
    v.InRange ∧ v.performAll [.zoom anchor 200, .zoom anchor (1 / 2)] = v.zoom anchor 50 ∧
      v.performAll [.pinchStart ⟨130, 100⟩ ⟨170, 100⟩, .pinchMove ⟨110, 100⟩ ⟨190, 100⟩,
          .pinchMove ⟨120, 100⟩ ⟨180, 100⟩] =
        (v.zoom anchor (3 / 2)).pinchStart ⟨120, 100⟩ ⟨180, 100⟩ := by
  intro v anchor
  have hrange : v.InRange := .ofSize 200 200
  have hone : v.scale = 1 := exact_one
  have hforty : (⟨130, 100⟩ : Point ℝ).distance ⟨170, 100⟩ = 40 := by
    rw [Point.distance_of_row]
    norm_num
  have heighty : (⟨110, 100⟩ : Point ℝ).distance ⟨190, 100⟩ = 80 := by
    rw [Point.distance_of_row]
    norm_num
  have hsixty : (⟨120, 100⟩ : Point ℝ).distance ⟨180, 100⟩ = 60 := by
    rw [Point.distance_of_row]
    norm_num
  obtain ⟨hfactors, hpinch⟩ := performAll_eq_zoom hrange anchor
  refine ⟨hrange, ?_, ?_⟩
  -- The first factor is clamped at the largest scale, so the second halves that.
  · have hscale : (v.performAll [.zoom anchor 200, .zoom anchor (1 / 2)]).scale = 50 := by
      show Arith.clamp minScale maxScale
        (Arith.clamp minScale maxScale (v.scale * 200) * (1 / 2)) = 50
      rw [hone, exact_minScale, exact_maxScale]
      norm_num [Arith.clamp]
    have hzooms : v.performAll [.zoom anchor 200, .zoom anchor (1 / 2)] =
        v.zoom anchor ((v.performAll [.zoom anchor 200, .zoom anchor (1 / 2)]).scale / v.scale) :=
      hfactors [200, 1 / 2]
    rw [hzooms, hscale, hone, div_one]
  · let w := v.pinchStart ⟨130, 100⟩ ⟨170, 100⟩
    have htwo : (w.pinchMove ⟨110, 100⟩ ⟨190, 100⟩).scale = 2 := by
      have hspan : w.span = 40 := hforty
      rw [pinchMove_of_pos (by rw [exact_zero, hspan]; norm_num), hspan, heighty]
      show Arith.clamp minScale maxScale (v.scale * (80 / 40)) = 2
      rw [hone, exact_minScale, exact_maxScale]
      norm_num [Arith.clamp]
    have hthreeHalves :
        ((w.pinchMove ⟨110, 100⟩ ⟨190, 100⟩).pinchMove ⟨120, 100⟩ ⟨180, 100⟩).scale = 3 / 2 := by
      have hspan : (w.pinchMove ⟨110, 100⟩ ⟨190, 100⟩).span = 80 := heighty
      rw [pinchMove_of_pos (by rw [exact_zero, hspan]; norm_num), hspan, hsixty]
      show Arith.clamp minScale maxScale
        ((w.pinchMove ⟨110, 100⟩ ⟨190, 100⟩).scale * (60 / 80)) = 3 / 2
      rw [htwo, exact_minScale, exact_maxScale]
      norm_num [Arith.clamp]
    -- The fingers keep their midpoint, and no scale on the way is clamped.
    have hsteady : w.Steady anchor [(⟨110, 100⟩, ⟨190, 100⟩), (⟨120, 100⟩, ⟨180, 100⟩)] := by
      refine ⟨?_, ?_, ?_⟩
      · norm_num [Point.midpoint, anchor]
      · simp [heighty, hsixty]
      · intro shown hne hshown
        have hcases := (List.mem_inits _ _).mpr hshown
        simp only [List.inits, List.map_cons, List.map_nil, List.mem_cons, List.not_mem_nil,
          or_false, hne, false_or] at hcases
        rw [exact_minScale, exact_maxScale]
        obtain rfl | rfl := hcases
        · have hscale : (w.performAll (pinchMoves [(⟨110, 100⟩, ⟨190, 100⟩)])).scale = 2 := htwo
          rw [hscale]
          norm_num
        · have hscale : (w.performAll (pinchMoves [(⟨110, 100⟩, ⟨190, 100⟩),
            (⟨120, 100⟩, ⟨180, 100⟩)])).scale = 3 / 2 := hthreeHalves
          rw [hscale]
          norm_num
    have hrun := hpinch ⟨130, 100⟩ ⟨170, 100⟩ _ (by rw [hforty]; norm_num) hsteady
    rw [hforty] at hrun
    have hratio : (60 : ℝ) / 40 = 3 / 2 := by norm_num
    simp only [List.getLastD, List.getLast_cons_cons, List.getLast_singleton, hsixty,
      hratio] at hrun
    exact hrun

end Viewport

end TurtleCurves
