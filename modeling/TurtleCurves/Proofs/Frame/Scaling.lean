import Mathlib.Analysis.SpecialFunctions.Trigonometric.Basic
import TurtleCurves.Proofs.Frame.Brackets
import TurtleCurves.Proofs.Frame.Nesting
import TurtleCurves.Proofs.Raster.Line
import TurtleCurves.Proofs.View.Anchor

namespace TurtleCurves

/-!
# Strokes scale with the view

A stroke is painted as wide as the present transform scales it. In exact arithmetic only the calls
that scale have a part in that: a transform that has come out of any calls turns and shifts, and
scales by the product of their factors. A frame scales once, before its first stroke.

* `Factors`, `Factors.follow` — the factors of the present transform and of the kept ones;
* `Scaled`, `Scaled.follow` — a transform stack that scales by these factors; every call keeps that;
* `Raster.capsules` — the thick lines that a list of calls paints;
* `Raster.radius_capsules` — while no call scales, all of them are equally thick;
* `Frame.radii_draw` — hence a frame draws every stroke as thick as the scale of the view makes it;
* `Frame.radii_of_view` — the transforms of any calls, and the strokes of any frame.
-/

/-! ### Factors in effect -/

/-- The factors by which the present transform scales, and those of the kept ones. -/
structure Factors where
  current : List ℝ
  saved : List (List ℝ)

namespace Factors

/-- Nothing is scaled. -/
def none : Factors := ⟨[], []⟩

/-- The factors after a call. -/
def follow (fs : Factors) : Call ℝ → Factors
  | .reset => none
  | .scale factor => ⟨factor :: fs.current, fs.saved⟩
  | .push => ⟨fs.current, fs.current :: fs.saved⟩
  | .pop =>
    match fs.saved with
    | [] => fs
    | l :: rest => ⟨l, rest⟩
  | _ => fs

/-- The factors after a list of calls. -/
def followAll (fs : Factors) (calls : List (Call ℝ)) : Factors := calls.foldl follow fs

end Factors

/-- Every transform of the stack scales by the product of its factors. -/
def Scaled (t : Transform ℝ) (fs : Factors) : Prop :=
  List.Forall₂ (fun m l => m.ScalesBy l.prod) (t.current :: t.saved) (fs.current :: fs.saved)

namespace Scaled

variable {t : Transform ℝ} {fs : Factors}

/-- At first nothing is scaled. -/
theorem initial : Scaled Transform.initial Factors.none :=
  .cons Affine.ScalesBy.identity .nil

/-- Another map before the present one brings its factor along. -/
theorem compose (h : Scaled t fs) {m : Affine ℝ} {factor : ℝ} (hm : m.ScalesBy factor) :
    Scaled (t.compose m) ⟨factor :: fs.current, fs.saved⟩ := by
  obtain ⟨hcurrent, hsaved⟩ := List.forall₂_cons.mp h
  refine .cons ?_ hsaved
  rw [List.prod_cons, mul_comm]
  exact hcurrent.after hm

/-- A map that scales nothing changes no factor. -/
theorem compose_one (h : Scaled t fs) {m : Affine ℝ} (hm : m.ScalesBy 1) :
    Scaled (t.compose m) fs := by
  obtain ⟨hcurrent, hsaved⟩ := List.forall₂_cons.mp h
  refine .cons ?_ hsaved
  rw [← mul_one fs.current.prod]
  exact hcurrent.after hm

/-- **One call.** -/
theorem follow (h : Scaled t fs) (call : Call ℝ) : Scaled (t.follow call) (fs.follow call) := by
  cases call with
  | reset => exact initial
  | shift dx dy => exact h.compose_one (.shift dx dy)
  | rotate angle => exact h.compose_one (.rotation angle)
  | scale factor => exact h.compose (.scaling factor)
  | push =>
    obtain ⟨hcurrent, hsaved⟩ := List.forall₂_cons.mp h
    exact .cons hcurrent (.cons hcurrent hsaved)
  | pop =>
    obtain ⟨current, saved⟩ := t
    obtain ⟨factors, others⟩ := fs
    -- The two stacks are equally high, so that both go back or neither does.
    obtain ⟨-, hsaved⟩ := List.forall₂_cons.mp h
    cases hsaved with
    | nil => exact h
    | cons hback hrest => exact .cons hback hrest
  | background color => exact h
  | line start stop => exact h
  | color color => exact h
  | width px => exact h

/-- **Any calls.** -/
theorem followAll (h : Scaled t fs) (calls : List (Call ℝ)) :
    Scaled (t.followAll calls) (fs.followAll calls) := by
  induction calls generalizing t fs with
  | nil => exact h
  | cons call calls ih => exact ih (h.follow call)

end Scaled

/-! ### The lines of a painting surface -/

namespace Call

variable {α : Type}

/-- The call draws a line. -/
def isLine : Call α → Bool
  | .line _ _ => true
  | _ => false

/-- The call changes nothing that the thickness of later lines depends on. -/
def keepsThickness : Call α → Bool
  | .reset | .scale _ | .width _ => false
  | _ => true

end Call

namespace Raster

variable {α : Type} [Scalar α]

/-- The thick line that a call paints, if it paints one. -/
def capsule? (r : Raster α) : Call α → Option (Capsule α)
  | .line p q => some (r.capsule p q)
  | _ => none

/-- The thick lines that a list of calls paints. -/
def capsules (r : Raster α) : List (Call α) → List (Capsule α)
  | [] => []
  | call :: calls => (r.capsule? call).toList ++ (r.perform call).capsules calls

/-- The lines of two lists of calls, those of the second on the surface that the first has left. -/
theorem capsules_append (r : Raster α) (cs ds : List (Call α)) :
    r.capsules (cs ++ ds) = r.capsules cs ++ (r.run cs).capsules ds := by
  induction cs generalizing r with
  | nil => rfl
  | cons call cs ih => rw [List.cons_append, capsules, capsules, ih, List.append_assoc]; rfl

/-- One for each call that draws a line. -/
theorem length_capsules (r : Raster α) (calls : List (Call α)) :
    (r.capsules calls).length = calls.countP Call.isLine := by
  induction calls generalizing r with
  | nil => rfl
  | cons call calls ih =>
    have hone : (r.capsule? call).toList.length = (Call.isLine call).toNat := by
      cases call <;> rfl
    rw [capsules, List.length_append, ih, hone, List.countP_cons, Nat.add_comm]
    cases call.isLine <;> rfl

end Raster

/-- Nothing but the one factor is in effect. -/
def Factors.Only (fs : Factors) (factor : ℝ) : Prop :=
  ∀ l ∈ fs.current :: fs.saved, l = [factor]

/-- Going back is to transforms that scale by the same factor. -/
theorem Factors.Only.follow {fs : Factors} {factor : ℝ} (h : fs.Only factor) {call : Call ℝ}
    (hcall : call.keepsThickness = true) : (fs.follow call).Only factor := by
  cases call with
  | reset => cases hcall
  | scale f => cases hcall
  | width px => cases hcall
  | push => exact List.forall_mem_cons.mpr ⟨h _ List.mem_cons_self, h⟩
  | pop =>
    obtain ⟨current, saved⟩ := fs
    cases saved with
    | nil => exact h
    | cons l rest => exact (List.forall_mem_cons.mp h).2
  | _ => exact h

namespace Raster

/-- The radius of a line where only one factor is in effect. -/
theorem radius_of_scaled {r : Raster ℝ} {fs : Factors} {factor : ℝ}
    (hscaled : Scaled r.transform fs) (honly : fs.Only factor) :
    r.radius = max (1 / 2) (r.strokeWidth * |factor| / 2) := by
  have hfactor := (List.forall₂_cons.mp hscaled).1.factor
  rw [honly _ List.mem_cons_self, List.prod_singleton] at hfactor
  rw [radius_eq, hfactor]

/-- **Equally thick.** As long as no call scales, every line is as thick as the first. -/
theorem radius_capsules {r : Raster ℝ} {fs : Factors} {factor : ℝ}
    (hscaled : Scaled r.transform fs) (honly : fs.Only factor) {calls : List (Call ℝ)}
    (hcalls : calls.all Call.keepsThickness = true) :
    ∀ k ∈ r.capsules calls, k.radius = max (1 / 2) (r.strokeWidth * |factor| / 2) := by
  induction calls generalizing r fs with
  | nil => exact fun k hk => absurd hk List.not_mem_nil
  | cons call calls ih =>
    rw [List.all_cons, Bool.and_eq_true] at hcalls
    obtain ⟨hcall, hrest⟩ := hcalls
    -- Only a call that sets the width changes it, and the frame has none past its opening.
    have hwidth : (r.perform call).strokeWidth = r.strokeWidth := by
      cases call with
      | width px => cases hcall
      | _ => rfl
    have hnext : Scaled (r.perform call).transform (fs.follow call) := by
      have hperform := r.transform_run [call]
      exact hperform ▸ hscaled.follow call
    intro k hk
    -- The stroke is drawn by this call, under the transform as it stands, or by a later one.
    rcases List.mem_append.mp hk with hhere | hlater
    · have hradius : k.radius = r.radius := by
        cases call with
        | line p q =>
          obtain rfl := List.mem_singleton.mp hhere
          rfl
        | _ => cases hhere
      rw [hradius, radius_of_scaled hscaled honly]
    · rw [← hwidth]
      exact ih hnext (honly.follow hcall) hrest k hlater

end Raster

/-! ### Frames -/

namespace Frame

/-- No call of an action scales, and the calls of a stroke draw one line. -/
theorem callsOf_keepsThickness {α : Type} [Scalar α] (colors : ColorSource α) (total : Nat)
    (length : α) (a : Action α) :
    (callsOf colors total length a).all Call.keepsThickness = true ∧
      (callsOf colors total length a).countP Call.isLine = a.stroke?.toList.length := by
  cases a with
  | draw k =>
    -- Outside the flat mode a stroke has its colour set before it is drawn.
    by_cases hflat : colors.mode = .flat
    · simp only [callsOf, if_pos hflat]
      exact ⟨rfl, rfl⟩
    · simp only [callsOf, if_neg hflat]
      exact ⟨rfl, rfl⟩
  | turn degrees => exact ⟨rfl, rfl⟩
  | push => exact ⟨rfl, rfl⟩
  | pop => exact ⟨rfl, rfl⟩

/-- So it is with the calls of many actions. -/
theorem flatMap_callsOf_keepsThickness {α : Type} [Scalar α] (colors : ColorSource α) (total : Nat)
    (length : α) (actions : List (Action α)) :
    (actions.flatMap (callsOf colors total length)).all Call.keepsThickness = true ∧
      (actions.flatMap (callsOf colors total length)).countP Call.isLine =
        (actions.filterMap Action.stroke?).length := by
  induction actions with
  | nil => exact ⟨rfl, rfl⟩
  | cons a actions ih =>
    obtain ⟨hkeeps, hlines⟩ := callsOf_keepsThickness colors total length a
    rw [List.flatMap_cons, List.all_append, hkeeps, ih.1, List.countP_append, hlines, ih.2]
    refine ⟨rfl, ?_⟩
    -- An action draws one line if it is a stroke, and none otherwise.
    cases hstroke : a.stroke? with
    | none => simp [hstroke]
    | some k => simp [hstroke, Nat.add_comm]

/-- **The opening of a frame.** It draws nothing, scales by the view alone and sets the width. -/
theorem scaled_opening (d : Derivation ℝ) (v : Viewport ℝ) (colors : ColorSource ℝ)
    (background : Rgb) (px : ℝ) (r : Raster ℝ) :
    let r' := r.run (opening d v colors background px)
    r.capsules (opening d v colors background px) = [] ∧ r'.strokeWidth = px ∧
      Scaled r'.transform ⟨[v.scale], []⟩ := by
  intro r'
  have hplaced := Scaled.initial.followAll (placement v d.grammar)
  by_cases hflat : colors.mode = .flat
  · simp only [r', opening, if_pos hflat]
    exact ⟨rfl, rfl, hplaced⟩
  · simp only [r', opening, if_neg hflat]
    exact ⟨rfl, rfl, hplaced⟩

/-- Every stroke of a frame is painted equally thick. -/
theorem radii_draw (r : Raster ℝ) (d : Derivation ℝ) (v : Viewport ℝ) (colors : ColorSource ℝ)
    (background : Rgb) (px : ℝ) :
    (r.capsules (draw d v colors background px)).map Capsule.radius =
      List.replicate d.sentence.strokes (max (1 / 2) (px * |v.scale| / 2)) := by
  let actions := (walk d.grammar.gait d.sentence).1
  obtain ⟨hnothing, hwidth, hscaled⟩ := scaled_opening d v colors background px r
  obtain ⟨hkeeps, hlines⟩ := flatMap_callsOf_keepsThickness (colorsFor d colors)
    (totalFor d colors.mode) d.grammar.length actions
  -- The view is the one scaling of a frame, and every stroke is drawn below it.
  have honly : Factors.Only ⟨[v.scale], []⟩ v.scale := by
    simp [Factors.Only]
  have hradii := Raster.radius_capsules hscaled honly hkeeps
  rw [hwidth] at hradii
  rw [draw, Raster.capsules_append, hnothing, List.nil_append]
  refine List.eq_replicate_iff.mpr ⟨?_, List.forall_mem_map.mpr hradii⟩
  rw [List.length_map, Raster.length_capsules, hlines, ← Walk.length_strokes d.grammar.gait]
  rfl

/-- **Strokes scale with the view alone.** After any calls every transform of a surface, the present
one and the kept ones, keeps shapes and scales by the product of the factors in effect; going back
restores what there was before the call that kept the transform, and where no such call is left,
nothing changes. So a frame in a view with any history paints each of its strokes equally thick: the
width that is asked for, scaled as the view is, and at least one pixel. -/
theorem radii_of_view :
    (∀ calls : List (Call ℝ),
      let t := Transform.initial.followAll calls
      Scaled t (Factors.none.followAll calls) ∧
        (∀ cs ds, calls = cs ++ .push :: ds → Call.Nested ds →
          t.follow .pop = Transform.initial.followAll cs) ∧
        (t.saved ≠ [] → ∃ cs ds, calls = cs ++ .push :: ds ∧ Call.Nested ds) ∧
        (t.saved = [] → t.follow .pop = t)) ∧
    ∀ (r : Raster ℝ) (d : Derivation ℝ) (width height : ℝ) (gs : List (Viewport.Gesture ℝ))
      (colors : ColorSource ℝ) (background : Rgb) (px : ℝ),
      let v := (Viewport.ofSize width height).performAll gs
      (r.capsules (draw d v colors background px)).map Capsule.radius =
        List.replicate d.sentence.strokes (max (1 / 2) (px * v.scale / 2)) := by
  refine ⟨fun calls => ⟨Scaled.initial.followAll calls, ?_, Transform.exists_nested, ?_⟩, ?_⟩
  · rintro cs ds rfl hnested
    rw [Transform.followAll_append]
    exact Transform.pop_of_nested _ hnested
  · intro hnone
    rw [Transform.follow, Transform.pop, hnone]
  -- A scale kept in range is positive, so its absolute value is the scale itself.
  · intro r d width height gs colors background px v
    have hrange : v.InRange := (Viewport.InRange.ofSize width height).performAll gs
    rw [radii_draw, abs_of_pos hrange.scale_pos]

/-- Twofold and fivefold make tenfold, after a branch that was three times as large in between. A
curve of three strokes with a branch, magnified threefold, is drawn three pixels wide throughout. -/
theorem radii_of_view_branch :
    let calls : List (Call ℝ) := [.scale 2, .push, .push, .rotate 1, .scale 3, .pop, .scale 5]
    let t := Transform.initial.followAll calls
    let v := (Viewport.ofSize 200 200).performAll [.zoom ⟨20, 60⟩ 3]
    let g : Grammar ℝ := ⟨"F[+F]F".toList, SortedMap.empty, 90, 10, 0, ⟨0, 0⟩⟩
    let colors : ColorSource ℝ :=
      ⟨.flat, .horizontal, Palette.default, SortedMap.empty, none⟩
    t.current.scaleFactor = 10 ∧ t.follow .pop = Transform.initial.followAll [.scale 2] ∧
      ((Raster.ofSize 200 200).capsules (draw (Derivation.start g) v colors Rgb.black 1)).map
        Capsule.radius = [3 / 2, 3 / 2, 3 / 2] := by
  intro calls t v g colors
  obtain ⟨hcalls, hframes⟩ := radii_of_view
  obtain ⟨hscaled, hback, -, -⟩ := hcalls calls
  refine ⟨?_, ?_, ?_⟩
  · have hfactor : t.current.scaleFactor = |([5, 2] : List ℝ).prod| :=
      (List.forall₂_cons.mp hscaled).1.factor
    rw [hfactor]
    norm_num
  -- The second `pop` of the list matches the first `push`, over the branch nested in between.
  · have hnested : Call.Nested ([.push, .rotate 1, .scale 3, .pop, .scale 5] : List (Call ℝ)) :=
      .branch (.cons rfl (.cons rfl .nil)) (.cons rfl .nil)
    exact hback [.scale 2] _ rfl hnested
  · have hscale : v.scale = 3 := by
      have hone : (Viewport.ofSize 200 200 : Viewport ℝ).scale = 1 := exact_one
      show Arith.clamp Viewport.minScale Viewport.maxScale
        ((Viewport.ofSize 200 200 : Viewport ℝ).scale * 3) = 3
      rw [hone, Viewport.exact_minScale, Viewport.exact_maxScale]
      norm_num [Arith.clamp]
    have hstrokes : (Derivation.start g).sentence.strokes = 3 := by
      show Word.strokes "F[+F]F".toList = 3
      decide
    have hradius : max (1 / 2) (1 * 3 / 2) = (3 / 2 : ℝ) := by norm_num
    rw [hframes, hstrokes, hscale, hradius]
    rfl

end Frame

end TurtleCurves
