import TurtleCurves.Proofs.Explorer.Effect
import TurtleCurves.Proofs.Raster.Painting
import TurtleCurves.Raster.Surface
import TurtleCurves.Scalar.Binary64

namespace TurtleCurves

/-!
# Painting over what was there

A surface remembers pixels, transforms, a stroke colour and a stroke width from what was painted on
it before.  A frame sets each of them before it reads it.

* `Raster.Agree` — two surfaces that differ at most in a stroke colour which the mode sets anew
  before it is used;
* `Raster.agree_opening` — after the opening of a frame any two surfaces of one size agree;
* `Raster.Agree.action`, `Raster.Agree.actions` — and so they do after every action of the walk;
* `Frame.draw_measures` — a frame is the same after measurements;
* `Explorer.image_run_frame` — hence a frame comes out the same on every surface of its size, also
  on one that shows it already.
-/

variable {α : Type}

/-- Images of one size are equal when they are painted over. -/
theorem Image.fill_congr {img img' : Image} (hwidth : img.width = img'.width)
    (hheight : img.height = img'.height) (c : Rgb) : img.fill c = img'.fill c := by
  obtain ⟨width, height, pixels, hsize⟩ := img
  obtain ⟨width', height', pixels', hsize'⟩ := img'
  obtain rfl : width = width' := hwidth
  obtain rfl : height = height' := hheight
  rfl

namespace Raster

/-! ### Two surfaces -/

/-- The surfaces agree as far as a frame in this mode can tell from here on: only a flat drawing
relies on the stroke colour that is set. -/
structure Agree (mode : ColorMode) (r r' : Raster α) : Prop where
  image : r.image = r'.image
  transform : r.transform = r'.transform
  strokeWidth : r.strokeWidth = r'.strokeWidth
  stroke : mode = .flat → r.stroke = r'.stroke

namespace Agree

variable {mode : ColorMode} {r r' : Raster α}

/-- With the same stroke colour there is no difference left. -/
theorem set_stroke (h : Agree mode r r') (c : Rgb) :
    ({ r with stroke := c } : Raster α) = { r' with stroke := c } := by
  rw [h.image, h.transform, h.strokeWidth]

/-- In a flat drawing surfaces that agree are the same. -/
theorem eq_of_flat (h : Agree mode r r') (hflat : mode = .flat) : r = r' :=
  calc r = { r' with stroke := r.stroke } := h.set_stroke r.stroke
    _ = r' := by rw [h.stroke hflat]

theorem refl (mode : ColorMode) (r : Raster α) : Agree mode r r := ⟨rfl, rfl, rfl, fun _ => rfl⟩

end Agree

/-! ### Two surfaces under one frame -/

variable [Scalar α]

theorem run_append (r : Raster α) (cs ds : List (Call α)) :
    r.run (cs ++ ds) = (r.run cs).run ds := List.foldl_append ..

/-- Calls paint on an image and do not resize it. -/
theorem size_run (r : Raster α) (calls : List (Call α)) :
    (r.run calls).image.width = r.image.width ∧
      (r.run calls).image.height = r.image.height := by
  induction calls generalizing r with
  | nil => exact ⟨rfl, rfl⟩
  | cons call calls ih =>
    have hcall : (r.perform call).image.width = r.image.width ∧
        (r.perform call).image.height = r.image.height := by
      cases call with
      | line p q =>
        exact ⟨Image.width_fillSpans _ _ (r.lineSpans p q),
          Image.height_fillSpans _ _ (r.lineSpans p q)⟩
      | _ => exact ⟨rfl, rfl⟩
    obtain ⟨hwidth, hheight⟩ := ih (r.perform call)
    exact ⟨hwidth.trans hcall.1, hheight.trans hcall.2⟩

namespace Agree

variable {mode : ColorMode} {r r' : Raster α}

/-- A call that only moves the transform. -/
theorem follow (h : Agree mode r r') (call : Call α) :
    Agree mode ({ r with transform := r.transform.follow call } : Raster α)
      { r' with transform := r'.transform.follow call } :=
  ⟨h.image, congrArg (Transform.follow · call) h.transform, h.strokeWidth, h.stroke⟩

/-- **One action.** -/
theorem action {colors : ColorSource α} (h : Agree colors.mode r r') (total : Nat) (length : α)
    (a : Action α) :
    Agree colors.mode (r.run (Frame.callsOf colors total length a))
      (r'.run (Frame.callsOf colors total length a)) := by
  cases a with
  | draw s =>
    by_cases hflat : colors.mode = .flat
    · rw [h.eq_of_flat hflat]
      exact .refl ..
    · -- The stroke sets its colour first, and then there is no difference left.
      have hcolor := h.set_stroke (colors.resolve (Frame.contextOf total s))
      have hcalls : Frame.callsOf colors total length (.draw s) =
          .color (colors.resolve (Frame.contextOf total s)) ::
            [.line Point.origin ⟨length, 0⟩, .shift length 0] := if_neg hflat
      have hrun : r.run (Frame.callsOf colors total length (.draw s)) =
          r'.run (Frame.callsOf colors total length (.draw s)) := by
        rw [hcalls]
        exact congrArg (run · [.line Point.origin ⟨length, 0⟩, .shift length 0]) hcolor
      rw [hrun]
      exact .refl ..
  | turn degrees => exact h.follow (.rotate (Scalar.radians degrees))
  | push => exact h.follow .push
  | pop => exact h.follow .pop

/-- **A walk.** -/
theorem actions (colors : ColorSource α) (h : Agree colors.mode r r') (total : Nat) (length : α)
    (as : List (Action α)) :
    Agree colors.mode (r.run (as.flatMap (Frame.callsOf colors total length)))
      (r'.run (as.flatMap (Frame.callsOf colors total length))) := by
  induction as generalizing r r' with
  | nil => exact h
  | cons a as ih =>
    rw [List.flatMap_cons, run_append, run_append]
    exact ih (h.action total length a)

end Agree

/-- **The opening of a frame.** It paints over the image, forgets the transforms and sets the
stroke width, and in a flat drawing the stroke colour. -/
theorem agree_opening (d : Derivation α) (v : Viewport α) (colors : ColorSource α)
    (background : Rgb) (px : α) {r r' : Raster α} (hwidth : r.image.width = r'.image.width)
    (hheight : r.image.height = r'.image.height) :
    Agree colors.mode (r.run (Frame.opening d v colors background px))
      (r'.run (Frame.opening d v colors background px)) := by
  have himage := Image.fill_congr hwidth hheight background
  by_cases hflat : colors.mode = .flat
  · simp only [Frame.opening, if_pos hflat]
    exact ⟨himage, rfl, rfl, fun _ => rfl⟩
  · simp only [Frame.opening, if_neg hflat]
    exact ⟨himage, rfl, rfl, fun hmode => absurd hmode hflat⟩

/-- A frame leaves surfaces that agree, whatever they were before. -/
theorem agree_draw (d : Derivation α) (v : Viewport α) (colors : ColorSource α)
    (background : Rgb) (px : α) {r r' : Raster α} (hwidth : r.image.width = r'.image.width)
    (hheight : r.image.height = r'.image.height) :
    Agree colors.mode (r.run (Frame.draw d v colors background px))
      (r'.run (Frame.draw d v colors background px)) := by
  have hopening := agree_opening d v colors background px hwidth hheight
  rw [Frame.draw, run_append, run_append]
  exact Agree.actions (Frame.colorsFor d colors) hopening _ _ _

end Raster

variable [Scalar α]

/-- A frame is the same after measurements. -/
theorem Frame.draw_measures {f : Derivation α → Derivation α} (hf : Derivation.Measures f)
    (d : Derivation α) (v : Viewport α) (colors : ColorSource α) (background : Rgb) (px : α) :
    draw (f d) v colors background px = draw d v colors background px := by
  simp only [draw, opening, colorsFor, totalFor, hf.grammar, hf.sentence, hf.segmentCount,
    hf.bounds]

namespace Explorer

/-- What was measured for a frame does not change the next one. -/
theorem frame_redrawn (e : Explorer α) : e.redrawn.frame = e.frame := by
  unfold frame redrawn
  cases e.derivation with
  | none => rfl
  | some d => exact Frame.draw_measures (.frame e.colorMode) ..

/-- **A frame is all that is seen.** With a word on show, a frame gives the same image on any two
surfaces of one size, whatever their pixels, transforms, stroke colours and stroke widths were; and
drawn once more, with what was measured for it the first time, it changes nothing. -/
theorem image_run_frame {e : Explorer α} (hshown : e.derivation.isSome) {r r' : Raster α}
    (hwidth : r.image.width = r'.image.width) (hheight : r.image.height = r'.image.height) :
    (r.run e.frame).image = (r'.run e.frame).image ∧
      ((r.run e.frame).run e.redrawn.frame).image = (r.run e.frame).image := by
  obtain ⟨d, hd⟩ := Option.isSome_iff_exists.mp hshown
  have hframe : e.frame = Frame.draw d e.viewport e.colorSource e.background e.strokeWidth := by
    rw [frame, hd]
  have hsize := r.size_run e.frame
  rw [frame_redrawn, hframe] at *
  exact ⟨(Raster.agree_draw _ _ _ _ _ hwidth hheight).image,
    (Raster.agree_draw _ _ _ _ _ hsize.1 hsize.2).image⟩

/-- A curve over a new surface, and over one that is left with other pixels, an open branch, and
another stroke colour and width. -/
theorem image_run_frame_koch :
    let e := (ofSettings (Settings.default : Settings Float) 8 8).performAll
      [.load "koch", .setMode .depth, .grow]
    let r : Raster Float := Raster.ofSize 8 8
    let r' : Raster Float :=
      ⟨(Image.clear 8 8).fill ⟨1, 2, 3⟩, (Transform.initial.scale 3).push, ⟨4, 5, 6⟩, 7⟩
    e.derivation.isSome ∧ r.image ≠ r'.image ∧ r.image.width = r'.image.width ∧
      r.image.height = r'.image.height ∧ (r.run e.frame).image = (r'.run e.frame).image ∧
      ((r.run e.frame).run e.redrawn.frame).image = (r.run e.frame).image := by
  intro e r r'
  have hshown : e.derivation.isSome := by decide +kernel
  -- The surfaces differ before the frame, so the agreement after it says something.
  have hother : r.image ≠ r'.image := by
    intro h
    have hpixel : r.image.pixel? 0 0 = r'.image.pixel? 0 0 := by rw [h]
    exact absurd hpixel (by decide)
  exact ⟨hshown, hother, rfl, rfl, image_run_frame hshown rfl rfl⟩

end Explorer

end TurtleCurves
