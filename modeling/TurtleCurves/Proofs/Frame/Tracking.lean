import TurtleCurves.Frame.Drawing
import TurtleCurves.Proofs.Exact.Affine
import TurtleCurves.Proofs.Turtle.Strokes

namespace TurtleCurves

/-!
# The surface follows the walk

The turtle keeps its own pose and a stack of poses; a drawing surface keeps a transform and a
stack of transforms, and is never told a pose.  In exact arithmetic the two never drift apart.

* `Transform.drawnLines` — the lines that a list of calls draws, with where their ends come to
  lie and how many transforms are kept at the time;
* `Transform.act` — what a turtle's action does to a transform stack, whatever its colours;
* `Frame.poseMap` — the transform that belongs to a pose, and `Tracks`, the relation of a turtle
  and a transform stack that belong together: the present pose to the present transform, every
  kept pose to the kept transform in its place;
* `Tracks.step`, `Tracks.line_of_step` — one character of a word keeps the relation, and the line
  it draws is the stroke that the turtle reports;
* `drawnLines_draw` — hence a frame draws one line per stroke, where the viewport shows it.
-/

/-! ### The lines of a list of calls -/

/-- A line on a surface: where its ends are shown, and how many transforms are kept. -/
@[ext]
structure DrawnLine (α : Type) where
  start : Point α
  stop : Point α
  kept : Nat
  deriving DecidableEq, Repr

namespace Transform

variable {α : Type} [Scalar α]

/-- The line that a call draws under a transform, if it draws one. -/
def drawnLine? (t : Transform α) : Call α → Option (DrawnLine α)
  | .line p q => some ⟨t.apply p, t.apply q, t.depth⟩
  | _ => none

/-- The lines that a list of calls draws, from a given transform stack on. -/
def drawnLines (t : Transform α) : List (Call α) → List (DrawnLine α)
  | [] => []
  | call :: calls => (t.drawnLine? call).toList ++ (t.follow call).drawnLines calls

@[simp] theorem followAll_nil (t : Transform α) : t.followAll [] = t := rfl

@[simp] theorem followAll_cons (t : Transform α) (call : Call α) (calls : List (Call α)) :
    t.followAll (call :: calls) = (t.follow call).followAll calls := rfl

/-- The calls of two lists move the transform one after the other. -/
theorem followAll_append (t : Transform α) (cs ds : List (Call α)) :
    t.followAll (cs ++ ds) = (t.followAll cs).followAll ds := List.foldl_append ..

@[simp] theorem drawnLines_nil (t : Transform α) : t.drawnLines [] = [] := rfl

@[simp] theorem drawnLines_cons (t : Transform α) (call : Call α) (calls : List (Call α)) :
    t.drawnLines (call :: calls) =
      (t.drawnLine? call).toList ++ (t.follow call).drawnLines calls := rfl

/-- They draw the lines of both, those of the second from where the first left the transform. -/
theorem drawnLines_append (t : Transform α) (cs ds : List (Call α)) :
    t.drawnLines (cs ++ ds) = t.drawnLines cs ++ (t.followAll cs).drawnLines ds := by
  induction cs generalizing t with
  | nil => rfl
  | cons call cs ih => simp only [List.cons_append, drawnLines_cons, followAll_cons, ih,
      List.append_assoc]

end Transform

/-! ### The calls of an action -/

namespace Transform

variable {α : Type} [Scalar α]

/-- The transform stack after an action of the turtle. -/
def act (s : Transform α) (length : α) : Action α → Transform α
  | .draw _ => s.shift length 0
  | .turn degrees => s.rotate (Scalar.radians degrees)
  | .push => s.push
  | .pop => s.pop

/-- The line that a stroke of this length draws under a transform. -/
def strokeLine (s : Transform α) (length : α) : DrawnLine α :=
  ⟨s.apply Point.origin, s.apply ⟨length, 0⟩, s.depth⟩

/-- The calls of an action move the transform stack as the action does; colours move nothing. -/
theorem followAll_callsOf (s : Transform α) (colors : ColorSource α) (total : Nat) (length : α)
    (a : Action α) : s.followAll (Frame.callsOf colors total length a) = s.act length a := by
  cases a with
  | draw k =>
    -- A flat drawing sets no colour before a stroke.
    by_cases hmode : colors.mode = .flat
    · simp only [Frame.callsOf, if_pos hmode]; rfl
    · simp only [Frame.callsOf, if_neg hmode]; rfl
  | turn degrees => rfl
  | push => rfl
  | pop => rfl

/-- The calls of a stroke draw one line, and those of the other actions none. -/
theorem drawnLines_callsOf (s : Transform α) (colors : ColorSource α) (total : Nat) (length : α)
    (a : Action α) :
    s.drawnLines (Frame.callsOf colors total length a) =
      a.stroke?.toList.map fun _ => s.strokeLine length := by
  cases a with
  | draw k =>
    by_cases hmode : colors.mode = .flat
    · simp only [Frame.callsOf, if_pos hmode]; rfl
    · simp only [Frame.callsOf, if_neg hmode]; rfl
  | turn degrees => rfl
  | push => rfl
  | pop => rfl

end Transform

/-! ### Poses and transforms -/

namespace Frame

/-- The transform that belongs to a pose, when `base` is the transform of the turtle's plane:
the local origin comes to lie at the position, the local axis along the heading. -/
noncomputable def poseMap (base : Affine ℝ) (p : Pose ℝ) : Affine ℝ :=
  (base.after (Affine.shift p.position.x p.position.y)).after (Affine.rotation p.heading)

/-- The pen is where the pose is. -/
theorem poseMap_apply_origin (base : Affine ℝ) (p : Pose ℝ) :
    (poseMap base p).apply Point.origin = base.apply p.position := by
  simp [poseMap, Affine.rotation, Affine.apply, Point.origin, Affine.after, Affine.shift]

/-- Going one stroke ahead is a shift along the local axis. -/
theorem poseMap_forward (base : Affine ℝ) (g : Gait ℝ) (p : Pose ℝ) :
    (poseMap base p).after (Affine.shift g.length 0) = poseMap base (Turtle.forward g p) := by
  calc (poseMap base p).after (Affine.shift g.length 0)
      = (base.after (Affine.shift p.position.x p.position.y)).after
          ((Affine.rotation p.heading).after (Affine.shift g.length 0)) :=
        Affine.after_assoc _ _ _
    _ = (base.after ((Affine.shift p.position.x p.position.y).after
          (Affine.shift (Real.cos p.heading * g.length) (Real.sin p.heading * g.length)))).after
          (Affine.rotation p.heading) := by
        rw [Affine.rotation_after_shift, ← Affine.after_assoc, Affine.after_assoc base]
    _ = poseMap base (Turtle.forward g p) := by
        rw [Affine.shift_after_shift]; rfl

/-- The far end of a stroke is where the next pose is. -/
theorem poseMap_apply_axis (base : Affine ℝ) (g : Gait ℝ) (p : Pose ℝ) :
    (poseMap base p).apply ⟨g.length, 0⟩ = base.apply (Turtle.forward g p).position := by
  rw [← poseMap_apply_origin, ← poseMap_forward, Affine.apply_after, Affine.apply_shift]
  simp [Point.origin]

/-- Turning adds to the heading. -/
theorem poseMap_turn (base : Affine ℝ) (p : Pose ℝ) (angle : ℝ) :
    (poseMap base p).after (Affine.rotation angle) =
      poseMap base { p with heading := p.heading + angle } := by
  rw [poseMap, Affine.after_assoc, Affine.rotation_after_rotation]
  rfl

end Frame

/-- A transform stack that has followed a turtle: the present transform belongs to the present
pose, and every kept transform to the pose kept in its place. -/
structure Tracks (base : Affine ℝ) (t : Turtle ℝ) (s : Transform ℝ) : Prop where
  current : s.current = Frame.poseMap base t.pose
  saved : s.saved = t.saved.map (Frame.poseMap base)

namespace Tracks

variable {base : Affine ℝ} {t : Turtle ℝ} {s : Transform ℝ}

/-- As many transforms are kept as poses. -/
theorem depth_eq (h : Tracks base t s) : s.depth = t.saved.length := by
  show s.saved.length = t.saved.length
  rw [h.saved, List.length_map]

/-- A turtle that only turns is followed by a turn of the surface. -/
theorem turn (h : Tracks base t s) (angle : ℝ) :
    Tracks base { t with pose := { t.pose with heading := t.pose.heading + angle } }
      (s.rotate angle) := by
  refine ⟨?_, h.saved⟩
  show s.current.after (Affine.rotation angle) = _
  rw [h.current, Frame.poseMap_turn]

/-- **One character.** What the turtle does at a character, done to the transform stack, keeps
the stack in step with the turtle. -/
theorem step (h : Tracks base t s) (g : Gait ℝ) (c : Char) :
    Tracks base (t.step g c).2 ((t.step g c).1.elim s (s.act g.length)) := by
  unfold Turtle.step
  cases Symbol.ofChar c with
  | letter c =>
    refine ⟨?_, h.saved⟩
    show s.current.after (Affine.shift g.length (@OfNat.ofNat ℝ 0 (Arith.instOfNat 0))) = _
    rw [exact_zero, h.current, Frame.poseMap_forward]
    rfl
  | turnLeft => exact h.turn (Scalar.radians g.angle)
  | turnRight =>
    have hturn := h.turn (-Scalar.radians g.angle)
    rw [← sub_eq_add_neg, ← radians_neg] at hturn
    exact hturn
  | push =>
    refine ⟨h.current, ?_⟩
    show s.current :: s.saved = _
    rw [h.current, h.saved]
    rfl
  | pop =>
    -- the two stacks are empty together, so that an unmatched bracket is passed over by both
    cases hposes : t.saved with
    | nil =>
      simp only [Turtle.react, hposes]
      exact h
    | cons p rest =>
      have hsaved : s.saved = Frame.poseMap base p :: rest.map (Frame.poseMap base) := by
        rw [h.saved, hposes, List.map_cons]
      simp only [Turtle.react, hposes]
      show Tracks base _ s.pop
      unfold Transform.pop
      rw [hsaved]
      exact ⟨rfl, rfl⟩
  | other c => exact h

/-- The line of a stroke as the turtle reports it, its plane mapped by `base`. -/
noncomputable def lineOf (base : Affine ℝ) (k : Stroke ℝ) : DrawnLine ℝ :=
  ⟨base.apply k.start, base.apply k.stop, k.depth⟩

/-- A stroke that the turtle reports at a character is the line that the surface draws for it. -/
theorem line_of_step (h : Tracks base t s) (g : Gait ℝ) (c : Char) {a : Action ℝ} {k : Stroke ℝ}
    (ha : (t.step g c).1 = some a) (hk : a.stroke? = some k) :
    s.strokeLine g.length = lineOf base k := by
  cases a with
  | draw k' =>
    obtain rfl := Option.some.inj hk
    obtain ⟨hstart, hstop, hdepth⟩ := Turtle.stroke_of_step ha
    -- The turtle sits at the origin of the current frame and faces along its first axis.
    have hpen : s.apply Point.origin = base.apply t.pose.position := by
      show s.current.apply _ = _
      rw [h.current, Frame.poseMap_apply_origin]
    have hahead : s.apply ⟨g.length, @OfNat.ofNat ℝ 0 (Arith.instOfNat 0)⟩ =
        base.apply (Turtle.forward g t.pose).position := by
      show s.current.apply _ = _
      rw [exact_zero, h.current, Frame.poseMap_apply_axis]
    simp only [Transform.strokeLine, lineOf, hpen, hahead, h.depth_eq, hstart, hstop, hdepth]
  | turn degrees => cases hk
  | push => cases hk
  | pop => cases hk

/-- **A whole word.** What the turtle does along a word is drawn stroke by stroke where the turtle
reports it, and the transform stack is in step with the turtle at the end. -/
theorem read (h : Tracks base t s) (g : Gait ℝ) (colors : ColorSource ℝ) (total : Nat) (w : Word) :
    Tracks base (t.read g w).2
        (s.followAll ((t.read g w).1.flatMap (Frame.callsOf colors total g.length))) ∧
      s.drawnLines ((t.read g w).1.flatMap (Frame.callsOf colors total g.length)) =
        ((t.read g w).1.filterMap Action.stroke?).map (lineOf base) := by
  induction w generalizing t s with
  | nil => exact ⟨h, rfl⟩
  | cons c w ih =>
    have hstep := h.step g c
    have hline := fun {a k} => h.line_of_step g c (a := a) (k := k)
    rw [Turtle.read_cons]
    -- A character without an action leaves the surface alone.
    cases hact : (t.step g c).1 with
    | none =>
      rw [hact, Option.elim_none] at hstep
      simpa only [Option.toList_none, List.nil_append] using ih hstep
    | some a =>
      rw [hact] at hstep hline
      rw [Option.elim_some] at hstep
      obtain ⟨htracks, hlines⟩ := ih hstep
      simp only [Option.toList_some, List.singleton_append, List.flatMap_cons,
        Transform.followAll_append, Transform.followAll_callsOf, Transform.drawnLines_append,
        Transform.drawnLines_callsOf]
      refine ⟨htracks, ?_⟩
      rw [hlines]
      cases hk : a.stroke? with
      | none => simp only [List.filterMap_cons, hk]; rfl
      | some k => simp only [List.filterMap_cons, hk, hline rfl hk]; rfl

end Tracks

/-! ### Frames -/

namespace Frame

/-- The turtle's plane as the viewport shows it: everything that is placed before the first
turn. -/
def plane {α : Type} [Scalar α] (v : Viewport α) (g : Grammar α) : Affine α :=
  ((((Affine.shift (v.width / 2 + v.offset.x) (v.height / 2 + v.offset.y)).after
    (Affine.scaling v.scale)).after (Affine.shift (-v.width / 2) (-v.height / 2))).after
    (Affine.shift (v.width * g.origin.x) (v.height * g.origin.y)))

/-- Where on the canvas a point of the turtle's plane lies. -/
noncomputable def onCanvas (v : Viewport ℝ) (g : Grammar ℝ) (p : Point ℝ) : Point ℝ :=
  ⟨v.width * g.origin.x + p.x, v.height * g.origin.y + p.y⟩

/-- The five transforms of a placement are the viewport's mapping. -/
theorem plane_apply (v : Viewport ℝ) (g : Grammar ℝ) (p : Point ℝ) :
    (plane v g).apply p = v.toScreen (onCanvas v g p) := by
  simp only [plane, Affine.apply_after, Affine.apply_shift, Affine.apply_scaling,
    Viewport.toScreen, Viewport.center, onCanvas, Point.mk.injEq]
  constructor <;> ring

/-- After the opening of a frame the surface is in step with a turtle before its first character,
whatever was left on the surface. -/
theorem tracks_opening (d : Derivation ℝ) (v : Viewport ℝ) (colors : ColorSource ℝ)
    (background : Rgb) (px : ℝ) (s : Transform ℝ) :
    Tracks (plane v d.grammar) (Turtle.start d.grammar.gait)
      (s.followAll (opening d v colors background px)) := by
  have hcalls : s.followAll (opening d v colors background px) =
      ⟨(Affine.identity.after (plane v d.grammar)).after
        (Affine.rotation (Scalar.radians d.grammar.startAngle)), []⟩ := by
    simp only [plane, ← Affine.after_assoc]
    -- The opening sets one colour more in the flat mode, which does not move anything.
    by_cases hmode : colors.mode = .flat
    · simp only [opening, if_pos hmode]; rfl
    · simp only [opening, if_neg hmode]; rfl
  rw [hcalls, Affine.identity_after]
  refine ⟨?_, rfl⟩
  show _ = ((plane v d.grammar).after (Affine.shift (@OfNat.ofNat ℝ 0 (Arith.instOfNat 0))
    (@OfNat.ofNat ℝ 0 (Arith.instOfNat 0)))).after _
  rw [exact_zero, Affine.shift_zero, Affine.after_identity]
  rfl

/-- Nothing is drawn in the opening of a frame. -/
theorem drawnLines_opening (d : Derivation ℝ) (v : Viewport ℝ) (colors : ColorSource ℝ)
    (background : Rgb) (px : ℝ) (s : Transform ℝ) :
    s.drawnLines (opening d v colors background px) = [] := by
  by_cases hmode : colors.mode = .flat
  · simp only [opening, if_pos hmode]; rfl
  · simp only [opening, if_neg hmode]; rfl

/-- **The surface never drifts from the walk.** Whatever transforms a surface had before, a frame
draws one line for every stroke of the turtle's walk, in the order of the walk; the ends of the
line are shown where the viewport shows the ends of the stroke, and as many transforms are kept at
that moment as the turtle keeps poses. -/
theorem drawnLines_draw (d : Derivation ℝ) (v : Viewport ℝ) (colors : ColorSource ℝ)
    (background : Rgb) (px : ℝ) (s : Transform ℝ) :
    s.drawnLines (draw d v colors background px) =
      (Walk.strokes d.grammar.gait d.sentence).map fun k =>
        ⟨v.toScreen (onCanvas v d.grammar k.start), v.toScreen (onCanvas v d.grammar k.stop),
          k.depth⟩ := by
  have htracks := tracks_opening d v colors background px s
  have hlines := (htracks.read d.grammar.gait (colorsFor d colors) (totalFor d colors.mode)
    d.sentence).2
  -- The opening draws nothing; from there on the transform follows the turtle step by step.
  unfold draw
  rw [Transform.drawnLines_append, drawnLines_opening, List.nil_append]
  refine Eq.trans hlines ?_
  show _ = ((walk d.grammar.gait d.sentence).1.filterMap Action.stroke?).map _
  refine List.map_congr_left fun k _ => ?_
  rw [Tracks.lineOf, plane_apply, plane_apply]

end Frame

end TurtleCurves
