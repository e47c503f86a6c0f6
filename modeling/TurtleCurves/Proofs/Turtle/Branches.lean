import TurtleCurves.Proofs.Turtle.Depth
import TurtleCurves.Proofs.Turtle.Strokes
import TurtleCurves.Scalar.Binary64

namespace TurtleCurves

/-!
# Branches

A branch is a word with matching brackets, put between brackets.  The turtle draws it and comes
back, and what it does from then on is what it would have done without the branch.

* `Turtle.later`, `Action.later` — a turtle that has drawn more strokes before, and what it does;
* `Turtle.read_later` — it does the same, the strokes numbered later;
* `Turtle.read_branch` — a branch does nothing to the turtle but raise its count of strokes;
* `Walk.walk_branch` — hence nothing to the rest of a walk but renumber it.
-/

variable {α : Type}

/-- The same action after `k` more strokes. -/
def Action.later (k : Nat) : Action α → Action α
  | .draw s => .draw { s with index := s.index + k }
  | .turn degrees => .turn degrees
  | .push => .push
  | .pop => .pop

namespace Turtle

/-- The same turtle after `k` more strokes. -/
def later (k : Nat) (t : Turtle α) : Turtle α := { t with drawn := t.drawn + k }

variable [Scalar α] (g : Gait α) (t : Turtle α)

/-! ### Strokes drawn before -/

/-- One symbol is taken in the same way, whatever was drawn before. -/
theorem react_later (k : Nat) (s : Symbol) :
    (t.later k).react g s = ((t.react g s).1.map (Action.later k), (t.react g s).2.later k) := by
  cases s with
  | letter c => simp only [react, later, Option.map_some, Action.later, Nat.add_right_comm]
  | turnLeft => rfl
  | turnRight => rfl
  | push => rfl
  | pop =>
    obtain ⟨pose, saved, drawn⟩ := t
    cases saved with
    | nil => rfl
    | cons p rest => rfl
  | other c => rfl

/-- **Strokes drawn before only change the numbers.** -/
theorem read_later (k : Nat) (w : Word) :
    (t.later k).read g w = ((t.read g w).1.map (Action.later k), (t.read g w).2.later k) := by
  induction w generalizing t with
  | nil => rfl
  | cons c w ih =>
    have hstep : (t.later k).step g c =
        ((t.step g c).1.map (Action.later k), (t.step g c).2.later k) :=
      react_later g t k (.ofChar c)
    rw [read_cons, read_cons, hstep, ih, List.map_append, Option.toList_map]

/-! ### Branches -/

variable {t}

/-- A closing bracket goes back to the pose kept last. -/
theorem step_close {p : Pose α} {rest : List (Pose α)} (h : t.saved = p :: rest) :
    (t.step g ']').2 = ⟨p, rest, t.drawn⟩ := by
  obtain ⟨pose, saved, drawn⟩ := t
  subst h
  rfl

/-- **A branch.** The turtle comes back to where it was, with the poses that it had kept. -/
theorem read_branch (t : Turtle α) {w : Word} (h : w.Balanced) :
    (t.read g ('[' :: w ++ [']'])).2 = t.later w.strokes := by
  have hsaved : (((t.step g '[').2.read g w).2).saved = t.pose :: t.saved :=
    saved_read_of_balanced g h
  have hdrawn : (((t.step g '[').2.read g w).2).drawn = t.drawn + w.strokes := drawn_read g _ w
  rw [List.cons_append, read_cons, read_append, read_cons, read_nil, step_close g hsaved, hdrawn]
  rfl

end Turtle

/-! ### Whole walks -/

namespace Walk

variable [Scalar α]

/-- **A branch is by itself.** Whatever brackets the words before and behind it leave open or
close, behind a branch the actions are those of the same walk without the branch, with every stroke
numbered later by the letters of the branch that draw; and the walk ends in the same pose. -/
theorem walk_branch (g : Gait α) (u v : Word) {w : Word} (h : w.Balanced) :
    ∃ rest : List (Action α),
      (walk g (u ++ v)).1 = (walk g u).1 ++ rest ∧
      (walk g (u ++ '[' :: w ++ ']' :: v)).1 =
        (walk g (u ++ '[' :: w ++ [']'])).1 ++ rest.map (Action.later w.strokes) ∧
      (walk g (u ++ '[' :: w ++ ']' :: v)).2 = (walk g (u ++ v)).2 := by
  -- Behind the branch stands the turtle that `u` left, with more strokes drawn.
  have hback : ((Turtle.start g).read g (u ++ '[' :: w ++ [']'])).2 =
      ((Turtle.start g).read g u).2.later w.strokes := by
    rw [List.append_assoc, Turtle.read_append]
    exact Turtle.read_branch g _ h
  rw [List.append_cons (u ++ '[' :: w) ']' v]
  refine ⟨(((Turtle.start g).read g u).2.read g v).1, ?_, ?_, ?_⟩
  · simp only [walk, Turtle.read_append]
  · rw [walk, Turtle.read_append, hback, Turtle.read_later]
    rfl
  · rw [walk, walk, Turtle.read_append, Turtle.read_append _ _ u, hback, Turtle.read_later]
    rfl

/-- Between a stray closing bracket and a branch that stays open, a branch with a branch in it. -/
theorem walk_branch_nested :
    let g : Gait Float := ⟨10, 90, 0⟩
    let u : Word := ['F', ']']
    let w : Word := ['+', 'F', '[', 'F', ']']
    let v : Word := ['[', '-', 'F']
    w.Balanced ∧
      ∃ rest : List (Action Float),
        (walk g (u ++ v)).1 = (walk g u).1 ++ rest ∧
        (walk g (u ++ '[' :: w ++ ']' :: v)).1 =
          (walk g (u ++ '[' :: w ++ [']'])).1 ++ rest.map (Action.later 2) ∧
        (walk g (u ++ '[' :: w ++ ']' :: v)).2 = (walk g (u ++ v)).2 := by
  intro g u w v
  have h : w.Balanced := by decide
  -- The branch has two strokes and a branch of its own, and `u` ends with a stray bracket.
  exact ⟨h, walk_branch g u v h⟩

end Walk

end TurtleCurves
