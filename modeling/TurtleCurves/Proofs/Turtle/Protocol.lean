import TurtleCurves.Proofs.Exact.Scalar
import TurtleCurves.Proofs.Grammar.Answers
import TurtleCurves.Proofs.Turtle.Pen
import TurtleCurves.Proofs.Turtle.Strokes

namespace TurtleCurves

/-!
# What a consumer of a walk may rely on

The actions of a walk come one at a time, and a consumer keeps its own books on them: how many
strokes there were, how deep the branches are, where the pen is.

* `Word.isMark` — the characters that the turtle heeds, and `Turtle.read_filter_isMark`, the others
  change nothing;
* `Turtle.exists_read_of_append` — every action of a word is made at one of its characters, and the
  actions before it are those of the word up to there;
* `Turtle.level_read`, `Turtle.level_brackets_read` — as many poses are kept as brackets are open,
  strays passed over, whether they are counted on the word or on the actions;
* `Walk.actions_keep_protocol` — the books are right, along every walk.
-/

/-! ### Characters that count -/

namespace Word

/-- A character that the turtle heeds. -/
def isMark (c : Char) : Bool := isStroke c || c == '+' || c == '-' || c == '[' || c == ']'

theorem ofChar_of_isMark_eq_false {c : Char} (h : isMark c = false) :
    Symbol.ofChar c = .other c := by
  simp only [isMark, Bool.or_eq_false_iff, beq_eq_false_iff_ne] at h
  obtain ⟨⟨⟨⟨hstroke, hplus⟩, hminus⟩, hopen⟩, hclose⟩ := h
  rw [Symbol.ofChar, if_neg (ne_true_of_eq_false hstroke), if_neg hplus, if_neg hminus,
    if_neg hopen, if_neg hclose]

end Word

namespace Turtle

variable {α : Type} [Scalar α] (g : Gait α) (t : Turtle α)

/-- The characters that the turtle does not heed may as well be left out. -/
theorem read_filter_isMark (w : Word) : t.read g (w.filter Word.isMark) = t.read g w := by
  induction w generalizing t with
  | nil => rfl
  | cons c w ih =>
    cases hmark : Word.isMark c with
    | true =>
      rw [List.filter_cons_of_pos hmark]
      simp only [read_cons, ih]
    | false =>
      -- A character without a meaning issues no action and leaves the turtle alone.
      have hskip : t.step g c = (none, t) := by
        rw [step, Word.ofChar_of_isMark_eq_false hmark]
        rfl
      rw [List.filter_cons_of_neg (ne_true_of_eq_false hmark), ih, read_cons, hskip]
      rfl

/-! ### Where actions come from -/

variable {g t}

/-- An action of a word is made at one of its characters, behind the actions of what comes
before that. -/
theorem exists_read_of_append {w : Word} {before after : List (Action α)} {a : Action α}
    (h : (t.read g w).1 = before ++ a :: after) :
    ∃ u c v, w = u ++ c :: v ∧ (t.read g u).1 = before ∧ ((t.read g u).2.step g c).1 = some a := by
  induction w generalizing t before with
  | nil => exact absurd h.symm (List.append_ne_nil_of_right_ne_nil before (List.cons_ne_nil a after))
  | cons c w ih =>
    rw [read_cons] at h
    -- The action is made at the first character, or somewhere in the rest.
    have hrest {more : List (Action α)} (hsplit : before = (t.step g c).1.toList ++ more)
        (hmore : ((t.step g c).2.read g w).1 = more ++ a :: after) :
        ∃ u c' v, c :: w = u ++ c' :: v ∧ (t.read g u).1 = before ∧
          ((t.read g u).2.step g c').1 = some a := by
      obtain ⟨u, c', v, rfl, hbefore, haction⟩ := ih hmore
      refine ⟨c :: u, c', v, rfl, ?_, ?_⟩
      · rw [read_cons, hbefore, hsplit]
      · rw [read_cons]
        exact haction
    cases hfirst : (t.step g c).1 with
    | none =>
      rw [hfirst] at h hrest
      exact hrest rfl h
    | some b =>
      rw [hfirst, Option.toList_some, List.singleton_append] at h
      rcases List.cons_eq_append_iff.mp h with ⟨rfl, hsame⟩ | ⟨more, rfl, hmore⟩
      · exact ⟨[], c, w, rfl, rfl, by rw [read_nil, hfirst, (List.cons.inj hsame).1]⟩
      · rw [hfirst] at hrest
        exact hrest rfl hmore

/-- The actions that a word begins with are those of a beginning of the word. -/
theorem exists_read_of_prefix {w : Word} {before : List (Action α)}
    (h : before <+: (t.read g w).1) : ∃ u, u <+: w ∧ (t.read g u).1 = before := by
  obtain ⟨after, hafter⟩ := h
  cases after with
  | nil =>
    rw [List.append_nil] at hafter
    exact ⟨w, List.prefix_rfl, hafter.symm⟩
  | cons a after =>
    obtain ⟨u, c, v, hw, hbefore, -⟩ := exists_read_of_append hafter.symm
    exact ⟨u, ⟨c :: v, hw.symm⟩, hbefore⟩

/-! ### Open branches -/

variable (g t)

/-- One character keeps as many poses as brackets are open after it, a stray one passed over. -/
theorem level_step (c : Char) :
    Word.levelAfter t.saved.length c = (t.step g c).2.saved.length := by
  by_cases hopen : c = '['
  · subst hopen
    rfl
  by_cases hclose : c = ']'
  · subst hclose
    obtain ⟨pose, saved, drawn⟩ := t
    cases saved with
    | nil => rfl
    | cons p rest => rfl
  · rw [saved_step_of_ne g t hopen hclose, Word.levelAfter, if_neg hopen, if_neg hclose]

/-- **Open brackets of a word are kept poses.** -/
theorem level_read (w : Word) : Word.level t.saved.length w = (t.read g w).2.saved.length := by
  induction w generalizing t with
  | nil => rfl
  | cons c w ih =>
    show Word.level (Word.levelAfter t.saved.length c) w = _
    rw [level_step g, ih, read_cons]

/-- One symbol keeps as many poses as brackets are open after its action. -/
theorem level_brackets_react (s : Symbol) :
    Word.level t.saved.length (Action.brackets (t.react g s).1.toList) =
      (t.react g s).2.saved.length := by
  cases s with
  | letter c => rfl
  | turnLeft => rfl
  | turnRight => rfl
  | push => rfl
  | pop =>
    obtain ⟨pose, saved, drawn⟩ := t
    -- With nothing saved a pop is no action, so the level stays at zero like the stack.
    cases saved with
    | nil => rfl
    | cons p rest => rfl
  | other c => rfl

/-- **Open brackets of the actions are kept poses.** -/
theorem level_brackets_read (w : Word) :
    Word.level t.saved.length (Action.brackets (t.read g w).1) =
      (t.read g w).2.saved.length := by
  induction w generalizing t with
  | nil => rfl
  | cons c w ih =>
    rw [read_cons, Action.brackets_append, Word.level, List.foldl_append, ← Word.level, ← Word.level,
      step, level_brackets_react g, ih]

end Turtle

/-! ### Whole walks -/

namespace Walk

variable {α : Type} [Scalar α] (g : Gait α) (w : Word)

/-- The brackets that are never closed are the poses that are left. -/
theorem length_saved : ((Turtle.start g).read g w).2.saved.length = w.unclosed := by
  rw [← Word.level_zero]
  exact (Turtle.level_read g (Turtle.start g) w).symm

theorem unclosed_brackets : (Action.brackets (walk g w).1).unclosed = w.unclosed := by
  rw [← Word.level_zero, ← length_saved g]
  exact Turtle.level_brackets_read g (Turtle.start g) w

/-- A walk keeps as many poses as it goes back to and leaves. -/
theorem countP_isPush :
    (walk g w).1.countP Action.isPush = (walk g w).1.countP Action.isPop + w.unclosed := by
  rw [← length_saved g]
  exact Turtle.pushes_read g (Turtle.start g) w

variable {g w}

/-- No beginning of a walk goes back to more poses than it has kept. -/
theorem countP_isPop_le {before : List (Action α)} (h : before <+: (walk g w).1) :
    before.countP Action.isPop ≤ before.countP Action.isPush := by
  obtain ⟨u, -, rfl⟩ := Turtle.exists_read_of_prefix h
  exact Nat.le.intro (countP_isPush g u).symm

/-- A stroke starts where the actions before it leave the pen, as deep as they leave branches. -/
theorem stroke_of_append {before after : List (Action α)} {s : Stroke α}
    (h : (walk g w).1 = before ++ .draw s :: after) :
    Action.PenAt before s.start ∧
      s.depth + before.countP Action.isPop = before.countP Action.isPush := by
  obtain ⟨u, c, v, -, rfl, haction⟩ := Turtle.exists_read_of_append h
  obtain ⟨hstart, -, hdepth⟩ := Turtle.stroke_of_step haction
  rw [hstart, hdepth, Nat.add_comm]
  exact ⟨Turtle.penAt_read g u, (Turtle.pushes_read g (Turtle.start g) u).symm⟩

/-- **What a consumer may rely on.**  Along the walk of every word, with any measures: the strokes
are numbered from zero, and there are as many of them as letters that draw, which is what every
derivation that has grown to the word counts.  The depth of a stroke is the number of pushes
less the number of pops so far, and it starts where the actions so far leave the pen and nowhere
else.  No beginning has more pops than pushes, and the pushes that no pop matches are as many as
the opening brackets of the word that are never closed.  The characters that the turtle does not
heed change neither the actions nor the pose in the end. -/
theorem actions_keep_protocol (g : Gait α) (w : Word) :
    let actions := (walk g w).1
    (actions.filterMap Action.stroke?).map Stroke.index = List.range w.strokes ∧
      (∀ (m : Grammar α) (rs : List Derivation.Request),
        let d := ((Derivation.start m).askAll rs).2
        d.sentence = w → (actions.filterMap Action.stroke?).length = d.segmentCount) ∧
      (∀ before s after, actions = before ++ .draw s :: after →
        s.depth + before.countP Action.isPop = before.countP Action.isPush ∧
          ∀ p, Action.PenAt before p ↔ p = s.start) ∧
      (∀ before, before <+: actions →
        before.countP Action.isPop ≤ before.countP Action.isPush) ∧
      (Action.brackets actions).unclosed = w.unclosed ∧
      actions.countP Action.isPush = actions.countP Action.isPop + w.unclosed ∧
      walk g (w.filter Word.isMark) = walk g w := by
  intro actions
  refine ⟨indices_strokes g w, ?_, ?_, fun before => countP_isPop_le, unclosed_brackets g w,
    countP_isPush g w, ?_⟩
  · intro m rs d hd
    have hcount : d.segmentCount = d.sentence.strokes :=
      ((Derivation.Shows.start m).askAll rs).2.coherent.segments
    rw [hcount, hd]
    exact length_strokes g w
  · intro before s after h
    -- The pen's place is unique, so showing that it is there settles both directions.
    obtain ⟨hpen, hdepth⟩ := stroke_of_append h
    refine ⟨hdepth, fun p => ⟨fun hp => hp.unique hpen, ?_⟩⟩
    rintro rfl
    exact hpen
  · rw [walk, Turtle.read_filter_isMark]
    rfl

/-- A stray bracket and two branches, the second of which stays open: its stroke starts where the
first branch began. -/
theorem actions_keep_protocol_branches :
    let g : Gait ℝ := ⟨10, 90, 0⟩
    let w : Word := ['F', '[', '+', 'F', ']', ']', 'x', '[', 'F']
    let m : Grammar ℝ := ⟨w, SortedMap.empty, 90, 10, 0, ⟨0, 0⟩⟩
    let first := Turtle.forward g (Turtle.start g).pose
    let turned : Pose ℝ := ⟨first.position, first.heading + Scalar.radians 90⟩
    let before : List (Action ℝ) :=
      [.draw ⟨0, 0, Point.origin, first.position, 'F'⟩, .push, .turn 90,
        .draw ⟨1, 1, first.position, (Turtle.forward g turned).position, 'F'⟩, .pop, .push]
    let last : Stroke ℝ := ⟨2, 1, first.position, (Turtle.forward g first).position, 'F'⟩
    (Derivation.start m).sentence = w ∧ (walk g w).1 = before ++ [.draw last] ∧
      (Derivation.start m).segmentCount = 3 ∧ w.unclosed = 1 ∧
      before.countP Action.isPop ≤ before.countP Action.isPush ∧
      last.depth + before.countP Action.isPop = before.countP Action.isPush ∧
      ∀ p, Action.PenAt before p ↔ p = first.position := by
  intro g w m first turned before last
  -- The second closing bracket is stray and the `x` has no meaning: neither issues an action.
  have hactions : (walk g w).1 = before ++ [.draw last] := rfl
  obtain ⟨-, hcount, hstroke, hprefix, -, -, -⟩ := actions_keep_protocol g w
  obtain ⟨hdepth, hpen⟩ := hstroke before last [] hactions
  have hthree : ((walk g w).1.filterMap Action.stroke?).length = 3 := by
    rw [hactions]
    rfl
  exact ⟨rfl, hactions, (hcount m [] rfl).symm.trans hthree, by decide,
    hprefix before ⟨_, hactions.symm⟩, hdepth, hpen⟩

end Walk

end TurtleCurves
