import TurtleCurves.Proofs.Frame.Tracking
import TurtleCurves.Proofs.Grammar.Answers
import TurtleCurves.Proofs.Turtle.Depth
import TurtleCurves.Raster.Surface
import TurtleCurves.Scalar.Binary64

namespace TurtleCurves

/-!
# Transforms that a frame leaves behind

A surface keeps a transform for every branch that is open.  What it has kept after a frame are the
branches that the word leaves open, and nothing from before the frame.

* `Call.isPush`, `Call.isPop` — the calls that keep a transform and go back to one;
* `Frame.countP_draw` — a frame has as many of them as the walk has actions of their kind;
* `Frame.depth_followAll_draw` — after a frame as many transforms are kept as the turtle keeps
  poses, whatever was kept before;
* `Frame.balanced_draw` — hence a grammar with matching brackets leaves no transform, however often
  it was grown.
-/

variable {α : Type}

namespace Call

/-- The call keeps a transform. -/
def isPush : Call α → Bool
  | .push => true
  | _ => false

/-- The call goes back to a kept transform. -/
def isPop : Call α → Bool
  | .pop => true
  | _ => false

end Call

/-- A painting surface keeps the transforms that the calls lead to. -/
theorem Raster.transform_run [Scalar α] (r : Raster α) (calls : List (Call α)) :
    (r.run calls).transform = r.transform.followAll calls := by
  induction calls generalizing r with
  | nil => rfl
  | cons call calls ih =>
    have hstep : (r.perform call).transform = r.transform.follow call := by cases call <;> rfl
    rw [Transform.followAll_cons, ← hstep]
    exact ih (r.perform call)

namespace Frame

variable [Scalar α]

/-! ### Calls that keep and restore -/

/-- The calls of one action. -/
theorem countP_callsOf (colors : ColorSource α) (total : Nat) (length : α) (a : Action α) :
    (callsOf colors total length a).countP Call.isPush = a.isPush.toNat ∧
      (callsOf colors total length a).countP Call.isPop = a.isPop.toNat := by
  cases a with
  | draw s =>
    by_cases hflat : colors.mode = .flat
    · simp only [callsOf, if_pos hflat]
      exact ⟨rfl, rfl⟩
    · simp only [callsOf, if_neg hflat]
      exact ⟨rfl, rfl⟩
  | turn degrees => exact ⟨rfl, rfl⟩
  | push => exact ⟨rfl, rfl⟩
  | pop => exact ⟨rfl, rfl⟩

/-- The calls of several actions. -/
theorem countP_flatMap_callsOf (colors : ColorSource α) (total : Nat) (length : α)
    (actions : List (Action α)) :
    (actions.flatMap (callsOf colors total length)).countP Call.isPush =
        actions.countP Action.isPush ∧
      (actions.flatMap (callsOf colors total length)).countP Call.isPop =
        actions.countP Action.isPop := by
  induction actions with
  | nil => exact ⟨rfl, rfl⟩
  | cons a actions ih =>
    obtain ⟨hpush, hpop⟩ := countP_callsOf colors total length a
    simp only [List.flatMap_cons, List.countP_append, List.countP_cons, ih.1, ih.2, hpush, hpop]
    cases a.isPush <;> cases a.isPop <;> simp [Nat.add_comm]

/-- Nothing is kept and nothing restored in the opening of a frame. -/
theorem countP_opening (d : Derivation α) (v : Viewport α) (colors : ColorSource α)
    (background : Rgb) (px : α) :
    (opening d v colors background px).countP Call.isPush = 0 ∧
      (opening d v colors background px).countP Call.isPop = 0 := by
  by_cases hflat : colors.mode = .flat
  · simp only [opening, if_pos hflat]
    exact ⟨rfl, rfl⟩
  · simp only [opening, if_neg hflat]
    exact ⟨rfl, rfl⟩

/-- **The calls of a frame.** They keep and restore as often as the turtle does. -/
theorem countP_draw (d : Derivation α) (v : Viewport α) (colors : ColorSource α)
    (background : Rgb) (px : α) :
    (draw d v colors background px).countP Call.isPush =
        (walk d.grammar.gait d.sentence).1.countP Action.isPush ∧
      (draw d v colors background px).countP Call.isPop =
        (walk d.grammar.gait d.sentence).1.countP Action.isPop := by
  obtain ⟨hpush, hpop⟩ := countP_opening d v colors background px
  obtain ⟨hpushes, hpops⟩ := countP_flatMap_callsOf (colorsFor d colors) (totalFor d colors.mode)
    d.grammar.length (walk d.grammar.gait d.sentence).1
  constructor
  · rw [draw, List.countP_append, hpush, hpushes, Nat.zero_add]
  · rw [draw, List.countP_append, hpop, hpops, Nat.zero_add]

/-! ### Kept transforms -/

/-- The opening of a frame forgets every transform. -/
theorem depth_followAll_opening (d : Derivation α) (v : Viewport α) (colors : ColorSource α)
    (background : Rgb) (px : α) (s : Transform α) :
    (s.followAll (opening d v colors background px)).depth = 0 := by
  by_cases hflat : colors.mode = .flat
  · simp only [opening, if_pos hflat]
    rfl
  · simp only [opening, if_neg hflat]
    rfl

/-- One character keeps as many transforms as poses. -/
theorem depth_act_step (g : Gait α) {t : Turtle α} {s : Transform α}
    (h : s.depth = t.saved.length) (length : α) (c : Char) :
    ((t.step g c).1.elim s (s.act length)).depth = (t.step g c).2.saved.length := by
  unfold Turtle.step
  cases Symbol.ofChar c with
  | letter c => exact h
  | turnLeft => exact h
  | turnRight => exact h
  | push => exact congrArg (· + 1) h
  | pop =>
    obtain ⟨pose, saved, drawn⟩ := t
    obtain ⟨current, kept⟩ := s
    -- Both stacks are empty, or both lose their last entry.
    cases saved with
    | nil => exact h
    | cons p rest =>
      cases kept with
      | nil => cases h
      | cons m more => exact Nat.succ.inj h
  | other c => exact h

/-- A word keeps as many transforms as poses, when there are as many of them before it. -/
theorem depth_followAll_read (g : Gait α) {t : Turtle α} {s : Transform α}
    (h : s.depth = t.saved.length) (colors : ColorSource α) (total : Nat) (length : α) (w : Word) :
    (s.followAll ((t.read g w).1.flatMap (callsOf colors total length))).depth =
      (t.read g w).2.saved.length := by
  induction w generalizing t s with
  | nil => exact h
  | cons c w ih =>
    have hstep := depth_act_step g h length c
    rw [Turtle.read_cons]
    -- A character without an action issues no calls.
    cases hact : (t.step g c).1 with
    | none =>
      rw [hact, Option.elim_none] at hstep
      exact ih hstep
    | some a =>
      rw [hact, Option.elim_some] at hstep
      simp only [Option.toList_some, List.singleton_append, List.flatMap_cons,
        Transform.followAll_append, Transform.followAll_callsOf]
      exact ih hstep

/-- **What a frame leaves.** As many transforms are kept after it as the turtle keeps poses at the
end of its walk, whatever was kept before. -/
theorem depth_followAll_draw (d : Derivation α) (v : Viewport α) (colors : ColorSource α)
    (background : Rgb) (px : α) (s : Transform α) :
    (s.followAll (draw d v colors background px)).depth =
      ((Turtle.start d.grammar.gait).read d.grammar.gait d.sentence).2.saved.length := by
  have hopening : (s.followAll (opening d v colors background px)).depth =
      (Turtle.start d.grammar.gait).saved.length := depth_followAll_opening ..
  rw [draw, Transform.followAll_append]
  exact depth_followAll_read d.grammar.gait hopening ..

/-! ### Matching brackets -/

/-- **Matching brackets stay matching.** When the brackets of the seed and of every expansion match
and brackets are not expanded, then after any requests the brackets of the word match, every
closing one finds a pose on the walk, and a frame goes back to a transform as often as it keeps one
and leaves none, on a painting surface or any other, whatever was kept there before. -/
theorem balanced_draw {g : Grammar α} (hg : g.Balanced) (rs : List Derivation.Request) :
    let d := ((Derivation.start g).askAll rs).2
    d.sentence.Balanced ∧ Walk.Matched g.gait d.sentence ∧
      ∀ (v : Viewport α) (colors : ColorSource α) (background : Rgb) (px : α) (s : Transform α),
        let calls := draw d v colors background px
        calls.countP Call.isPop = calls.countP Call.isPush ∧ (s.followAll calls).saved = [] ∧
          ∀ r : Raster α, (r.run calls).transform.saved = [] := by
  intro d
  have hshows := ((Derivation.Shows.start g).askAll rs).2
  have hbalanced : d.sentence.Balanced := by
    rw [hshows.sentence]
    exact hg.derive _
  refine ⟨hbalanced, hbalanced.matched g.gait, ?_⟩
  intro v colors background px s calls
  have hnone := hbalanced.saved_read d.grammar.gait
  have hleft : ∀ s : Transform α, (s.followAll calls).saved = [] := by
    intro s
    have hdepth := depth_followAll_draw d v colors background px s
    rw [hnone] at hdepth
    exact List.length_eq_zero_iff.mp hdepth
  refine ⟨?_, hleft s, fun r => ?_⟩
  · -- No pose is left, so every pose that was kept was gone back to.
    obtain ⟨hpush, hpop⟩ := countP_draw d v colors background px
    have hpushes := Turtle.pushes_read d.grammar.gait (Turtle.start d.grammar.gait) d.sentence
    rw [hnone] at hpushes
    rw [hpush, hpop]
    exact hpushes.symm
  · rw [r.transform_run]
    exact hleft r.transform

/-- A plant with nested branches, after two steps and with its strokes counted in between. -/
theorem balanced_draw_plant :
    let g : Grammar Float :=
      ⟨['X'], SortedMap.ofList [('F', "FF".toList), ('X', "F+[[X]-X]-F[-FX]+X".toList)],
        25, 8, -90, ⟨0.5, 0.95⟩⟩
    let d := ((Derivation.start g).askAll [.grow, .segmentCount, .growWithin 100]).2
    g.Balanced ∧ d.sentence.length = 89 ∧ d.sentence.Balanced ∧ Walk.Matched g.gait d.sentence ∧
      ∀ (v : Viewport Float) (colors : ColorSource Float) (background : Rgb) (px : Float)
        (s : Transform Float),
        let calls := draw d v colors background px
        calls.countP Call.isPop = calls.countP Call.isPush ∧ (s.followAll calls).saved = [] ∧
          ∀ r : Raster Float, (r.run calls).transform.saved = [] := by
  intro g d
  -- The seed and both rules have balanced brackets, of which one is nested.
  have hg : g.Balanced := ⟨by decide, by decide, by decide, by decide⟩
  exact ⟨hg, by decide, balanced_draw hg _⟩

end Frame

end TurtleCurves
