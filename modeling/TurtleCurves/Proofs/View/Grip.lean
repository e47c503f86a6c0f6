import TurtleCurves.Proofs.View.Anchor

namespace TurtleCurves

/-!
# Magnifying while the pointer is held

A held pointer drags the view, and the view can be magnified about it at the same time.  A drag
computes the offset from the place at which the pointer was pressed, relative to the offset of that
moment; magnifying rewrites the offset and leaves this place as it is.  So the point that was
pressed stays under the pointer as long as the view is magnified, and as long as it is dragged, but
not when it is dragged at another scale than the one it was pressed at.

* `HeldStep` — what happens while the pointer is held;
* `Grab`, `Grab.press`, `Grab.stepAll` — a held view, from the press on;
* `Grab.Drifts v p g` — where `g` shows the point of `v` that was pressed at `p`;
* `Drifts.step` — one step keeps that;
* `drift_stepAll` — how far the pressed point is from the pointer, and when it is under it;
* `grip_lost` — a wheel turned between a press and a move.
-/

/-- What happens while the pointer is held. -/
inductive HeldStep (α : Type) where
  /-- The pointer moves, and the view with it. -/
  | move (p : Point α)
  /-- The view is magnified about the pointer. -/
  | zoom (factor : α)
  /-- The wheel is turned. -/
  | wheel (delta : α)
  deriving DecidableEq, Repr

/-- A view and the pointer that holds it. -/
structure Grab (α : Type) where
  pointer : Point α
  view : Viewport α
  /-- The scale at which the pointer was pressed or moved last. -/
  settled : α

namespace Grab

variable {α : Type} [Scalar α]

/-- The pointer is pressed. -/
def press (v : Viewport α) (p : Point α) : Grab α := ⟨p, v.perform (.panStart p), v.scale⟩

/-- The held view after one step. -/
def step (g : Grab α) : HeldStep α → Grab α
  | .move p => ⟨p, g.view.perform (.panMove p), g.view.scale⟩
  | .zoom factor => { g with view := g.view.perform (.zoom g.pointer factor) }
  | .wheel delta => { g with view := g.view.perform (.wheel g.pointer delta) }

/-- The held view after several steps. -/
def stepAll (g : Grab α) (steps : List (HeldStep α)) : Grab α := steps.foldl step g

/-- A wheel that is not turned changes nothing. -/
theorem step_wheel_zero (g : Grab α) {delta : α} (h : Arith.isZero delta = true) :
    g.step (.wheel delta) = g := by
  simp only [step, Viewport.perform, Viewport.wheel, if_pos h]

/-- A notch of the wheel magnifies by a fixed factor. -/
theorem step_wheel (g : Grab α) {delta : α} (h : Arith.isZero delta ≠ true) :
    g.step (.wheel delta) = g.step (.zoom (if (0 : α) < delta then 1.1 else 0.9)) := by
  simp only [step, Viewport.perform, Viewport.wheel, if_neg h]

/-! ### The drift -/

/-- How far the pressed point is from the pointer, as a part of its way from the middle of the
canvas at the press; `scale` is the one of the press. -/
noncomputable def drift (scale : ℝ) (g : Grab ℝ) : ℝ :=
  g.view.scale / scale - g.view.scale / g.settled

/-- The held view has the canvas of `v` and its grip from a press at `p`, and it shows the point
that was pressed there at its drift from the pointer. -/
structure Drifts (v : Viewport ℝ) (p : Point ℝ) (g : Grab ℝ) : Prop where
  center : g.view.center = v.center
  grip : g.view.held.map Drag.grip = some ⟨p.x - v.offset.x, p.y - v.offset.y⟩
  scale : g.view.scale ≠ 0
  settled : g.settled ≠ 0
  shown : g.view.toScreen (v.toCanvas p) =
    ⟨g.pointer.x + g.drift v.scale * (p.x - (v.toScreen v.center).x),
      g.pointer.y + g.drift v.scale * (p.y - (v.toScreen v.center).y)⟩

namespace Drifts

variable {v : Viewport ℝ} {p : Point ℝ} {g : Grab ℝ}

theorem press (h : v.scale ≠ 0) (p : Point ℝ) : Drifts v p (press v p) := by
  refine ⟨rfl, rfl, h, h, ?_⟩
  have hstill : (Grab.press v p).drift v.scale = 0 := sub_self _
  have hview : (Grab.press v p).view.toScreen (v.toCanvas p) = p :=
    Viewport.toScreen_toCanvas h p
  rw [hview, hstill, zero_mul, zero_mul, add_zero, add_zero]
  rfl

/-- Dragging goes by the place of the press alone, whatever the drift was. -/
theorem move (h : Drifts v p g) (hv : v.scale ≠ 0) (q : Point ℝ) :
    Drifts v p (g.step (.move q)) := by
  -- The offset is set from the grip alone, so that only the present scale enters the new drift.
  obtain ⟨d, hheld, hgrip⟩ := Option.map_eq_some_iff.mp h.grip
  have hmoved : (g.step (.move q)).view =
      { g.view with
        offset := ⟨q.x - (p.x - v.offset.x), q.y - (p.y - v.offset.y)⟩
        held := some { d with moved := true } } := by
    show g.view.panMove q = _
    simp only [Viewport.panMove, hheld, hgrip]
  have hdrift : (g.step (.move q)).drift v.scale = g.view.scale / v.scale - 1 := by
    show (g.step (.move q)).view.scale / v.scale - (g.step (.move q)).view.scale / g.view.scale = _
    rw [hmoved]
    exact congrArg (g.view.scale / v.scale - ·) (div_self h.scale)
  have hcenter : (g.step (.move q)).view.center = v.center := by
    rw [hmoved]
    exact h.center
  have hpointer : (g.step (.move q)).pointer = q := rfl
  refine ⟨hcenter, ?_, ?_, h.scale, ?_⟩
  · rw [hmoved, ← hgrip]
    rfl
  · rw [hmoved]
    exact h.scale
  · rw [hdrift, hpointer]
    simp only [Viewport.toScreen, hcenter, Viewport.toCanvas]
    rw [hmoved]
    simp only [Point.mk.injEq]
    constructor <;> field_simp <;> ring

/-- Magnifying about the pointer multiplies the drift by the ratio of the scales. -/
theorem zoom (h : Drifts v p g) (factor : ℝ) : Drifts v p (g.step (.zoom factor)) := by
  have hscale : (g.view.zoom g.pointer factor).scale ≠ 0 :=
    (Viewport.InRange.zoom g.view g.pointer factor).scale_ne_zero
  have hdrift : (g.step (.zoom factor)).drift v.scale =
      (g.view.zoom g.pointer factor).scale / g.view.scale * g.drift v.scale := by
    show (g.view.zoom g.pointer factor).scale / v.scale -
      (g.view.zoom g.pointer factor).scale / g.settled = _
    unfold drift
    rw [mul_sub, div_mul_div_cancel₀ h.scale, div_mul_div_cancel₀ h.scale]
  refine ⟨h.center, h.grip, hscale, h.settled, ?_⟩
  -- The pressed point moves along its ray from the pointer.
  rw [hdrift]
  show (g.view.zoom g.pointer factor).toScreen (v.toCanvas p) = _
  rw [Viewport.toScreen_zoom h.scale, h.shown]
  simp only [Point.toward, add_sub_cancel_left, mul_assoc]
  rfl

/-- **One step.** The pressed point drifts on. -/
theorem step (h : Drifts v p g) (hv : v.scale ≠ 0) (s : HeldStep ℝ) : Drifts v p (g.step s) := by
  cases s with
  | move q => exact h.move hv q
  | zoom factor => exact h.zoom factor
  | wheel delta =>
    by_cases hstill : Arith.isZero delta = true
    · rw [step_wheel_zero g hstill]
      exact h
    · rw [step_wheel g hstill]
      exact h.zoom _

/-- **Many steps.** -/
theorem stepAll (h : Drifts v p g) (hv : v.scale ≠ 0) (steps : List (HeldStep ℝ)) :
    Drifts v p (g.stepAll steps) := by
  induction steps generalizing g with
  | nil => exact h
  | cons s steps ih => exact ih (h.step hv s)

/-- The pressed point is under the pointer if the last move was at the scale of the press, or if
the press was on the middle of the canvas. -/
theorem shown_eq_iff (h : Drifts v p g) (hv : v.scale ≠ 0) :
    g.view.toScreen (v.toCanvas p) = g.pointer ↔
      g.settled = v.scale ∨ p = v.toScreen v.center := by
  have hdrift : g.drift v.scale = 0 ↔ g.settled = v.scale := by
    unfold drift
    rw [sub_eq_zero, div_eq_div_iff hv h.settled, mul_right_inj' h.scale]
  have hpoint : p = v.toScreen v.center ↔
      p.x - (v.toScreen v.center).x = 0 ∧ p.y - (v.toScreen v.center).y = 0 := by
    rw [sub_eq_zero, sub_eq_zero]
    exact Point.eq_iff
  -- In each coordinate the drift is zero or the way from the middle is.
  have hshown : g.view.toScreen (v.toCanvas p) = g.pointer ↔
      g.drift v.scale * (p.x - (v.toScreen v.center).x) = 0 ∧
        g.drift v.scale * (p.y - (v.toScreen v.center).y) = 0 := by
    rw [h.shown, Point.eq_iff]
    simp only [add_eq_left]
  rw [hshown, mul_eq_zero, mul_eq_zero, ← or_and_left, hdrift, hpoint]

end Drifts

/-- **The drift of a held view.** Let the pointer be pressed on a view after any history, and then
moved, and the view magnified about it, in any order.  At every moment the pressed point is shown
beside the pointer by a multiple of its way from the middle of the canvas at the press: the present
scale by that of the press, less the present scale by that of the last move.  So it is under the
pointer exactly if the last move was at the scale of the press, or if the press was on the
middle. -/
theorem drift_stepAll (width height : ℝ) (gs : List (Viewport.Gesture ℝ)) (p : Point ℝ)
    (steps : List (HeldStep ℝ)) :
    let v := (Viewport.ofSize width height).performAll gs
    let g := (press v p).stepAll steps
    g.view.toScreen (v.toCanvas p) =
        ⟨g.pointer.x + (g.view.scale / v.scale - g.view.scale / g.settled) *
            (p.x - (v.toScreen v.center).x),
          g.pointer.y + (g.view.scale / v.scale - g.view.scale / g.settled) *
            (p.y - (v.toScreen v.center).y)⟩ ∧
      (g.view.toScreen (v.toCanvas p) = g.pointer ↔
        g.settled = v.scale ∨ p = v.toScreen v.center) := by
  intro v g
  have hv : v.scale ≠ 0 :=
    ((Viewport.InRange.ofSize width height).performAll gs).scale_ne_zero
  -- `Drifts` is what a press sets up and every zoom, wheel and move keeps.
  have hdrifts : Drifts v p g := (Drifts.press hv p).stepAll hv steps
  exact ⟨hdrifts.shown, hdrifts.shown_eq_iff hv⟩

/-- **A grip that is lost.** The pointer is pressed fifty to the right of the middle, the wheel is
turned by one notch, and the pointer moves on by ten: the pressed point is shown five further
on. -/
theorem grip_lost :
    let v : Viewport ℝ := Viewport.ofSize 200 200
    let g := (press v ⟨150, 100⟩).stepAll [.wheel 1, .move ⟨160, 100⟩]
    g.pointer = ⟨160, 100⟩ ∧ g.view.toScreen (v.toCanvas ⟨150, 100⟩) = ⟨165, 100⟩ := by
  intro v g
  have hv : v.scale = 1 := exact_one
  have hne : v.scale ≠ 0 := hv ▸ one_ne_zero
  have hdrifts : Drifts v ⟨150, 100⟩ g := (Drifts.press hne ⟨150, 100⟩).stepAll hne _
  have hnotch : (press v ⟨150, 100⟩).step (.wheel 1) = (press v ⟨150, 100⟩).step (.zoom 1.1) := by
    rw [step_wheel _ (by simp [Arith.isZero]), exact_zero, if_pos one_pos]
  have hsteps : g = ((press v ⟨150, 100⟩).step (.zoom 1.1)).step (.move ⟨160, 100⟩) := by
    rw [← hnotch]
    rfl
  have hscale : g.view.scale = 1.1 := by
    rw [hsteps]
    show Arith.clamp Viewport.minScale Viewport.maxScale (v.scale * 1.1) = 1.1
    rw [hv, one_mul, Arith.clamp_of_mem]
    · unfold Viewport.minScale
      norm_num
    · unfold Viewport.maxScale
      norm_num
  -- The last step is a move, so the drift is settled at the scale after the notch.
  have hsettled : g.settled = g.view.scale := by
    rw [hsteps]
    rfl
  have hdrift : g.drift v.scale = 0.1 := by
    rw [drift, hsettled, hscale, hv]
    norm_num
  have hmiddle : v.toScreen v.center = ⟨100, 100⟩ := by
    simp only [v, Viewport.toScreen, Viewport.center, Viewport.ofSize, Point.origin, exact_zero]
    norm_num
  refine ⟨rfl, ?_⟩
  rw [hdrifts.shown, hdrift, hmiddle]
  show (⟨160 + 0.1 * (150 - 100), 100 + 0.1 * (100 - 100)⟩ : Point ℝ) = _
  norm_num

end Grab

end TurtleCurves
