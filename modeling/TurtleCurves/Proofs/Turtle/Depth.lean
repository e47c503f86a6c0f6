import TurtleCurves.Proofs.Grammar.Brackets
import TurtleCurves.Turtle.Walk

namespace TurtleCurves

/-!
# Kept poses

The turtle keeps a pose at every opening bracket and goes back to one at a closing bracket, if one
is kept.  How many are kept is what the brackets read so far leave open.

* `Turtle.pushes_read` — along every word, matched or not, the poses that were kept are those that
  the turtle went back to and those that are left;
* `Turtle.saved_read_of_depth?` — as long as no closing bracket comes while none is open, a word
  leaves alone the poses that were kept before it, and keeps as many more as brackets are open;
* `Turtle.length_saved_read`, `Turtle.saved_read_of_balanced` — hence as many poses are kept as
  brackets are open, and the same poses when the brackets of the word match;
* `Walk.Matched`, `Word.Balanced.matched` — every closing bracket finds a pose, as it does in a word
  with matching brackets.
-/

/-! ### Actions that keep and restore -/

namespace Action

variable {α : Type}

/-- The action keeps a pose. -/
def isPush : Action α → Bool
  | .push => true
  | _ => false

/-- The action goes back to a kept pose. -/
def isPop : Action α → Bool
  | .pop => true
  | _ => false

end Action

namespace Turtle

variable {α : Type} [Scalar α] (g : Gait α) (t : Turtle α)

/-- One symbol keeps a pose, goes back to one, or does neither; a closing bracket without a kept
pose is no action. -/
theorem pushes_react (s : Symbol) :
    (t.react g s).1.toList.countP Action.isPush + t.saved.length =
      (t.react g s).1.toList.countP Action.isPop + (t.react g s).2.saved.length := by
  cases s with
  | letter c => rfl
  | turnLeft => rfl
  | turnRight => rfl
  | push => exact (Nat.add_comm 1 _).trans (Nat.zero_add _).symm
  | pop =>
    obtain ⟨pose, saved, drawn⟩ := t
    -- A pop with nothing saved is no action and leaves the stack empty.
    cases saved with
    | nil => rfl
    | cons p rest => exact (Nat.zero_add _).trans (Nat.add_comm _ 1)
  | other c => rfl

/-- **Every pose is accounted for.** What is kept along a word is gone back to or left over. -/
theorem pushes_read (w : Word) :
    (t.read g w).1.countP Action.isPush + t.saved.length =
      (t.read g w).1.countP Action.isPop + (t.read g w).2.saved.length := by
  induction w generalizing t with
  | nil => rfl
  | cons c w ih =>
    have hfirst := pushes_react g t (.ofChar c)
    have hrest := ih (t.step g c).2
    rw [read_cons, List.countP_append, List.countP_append]
    dsimp only [step] at hrest ⊢
    omega

/-! ### Open brackets -/

/-- A character other than a bracket leaves the kept poses alone. -/
theorem saved_step_of_ne {c : Char} (hopen : c ≠ '[') (hclose : c ≠ ']') :
    (t.step g c).2.saved = t.saved := by
  unfold step Symbol.ofChar
  rw [if_neg hopen, if_neg hclose]
  split_ifs <;> rfl

variable {t}

/-- One character leaves alone the poses below those that it may go back to. -/
theorem saved_step_of_depthAfter? {top base : List (Pose α)} (hsaved : t.saved = top ++ base)
    {c : Char} {m : Nat} (h : Word.depthAfter? top.length c = some m) :
    ∃ top', (t.step g c).2.saved = top' ++ base ∧ top'.length = m := by
  by_cases hopen : c = '['
  · subst hopen
    exact ⟨t.pose :: top, congrArg (t.pose :: ·) hsaved, Option.some.inj h⟩
  by_cases hclose : c = ']'
  · subst hclose
    obtain ⟨pose, saved, drawn⟩ := t
    subst hsaved
    -- Within the depth of the word a pop takes one of `top`, never one of `base`.
    cases top with
    | nil => cases h
    | cons p top => exact ⟨top, rfl, Option.some.inj h⟩
  · rw [Word.depthAfter?_of_ne hopen hclose] at h
    exact ⟨top, (saved_step_of_ne g t hopen hclose).trans hsaved, Option.some.inj h⟩

/-- A word leaves alone the poses below those that its closing brackets go back to. -/
theorem saved_read_of_depth? {top base : List (Pose α)} (hsaved : t.saved = top ++ base)
    {w : Word} {m : Nat} (h : Word.depth? top.length w = some m) :
    ∃ top', (t.read g w).2.saved = top' ++ base ∧ top'.length = m := by
  induction w generalizing t top with
  | nil => exact ⟨top, hsaved, Option.some.inj h⟩
  | cons c w ih =>
    obtain ⟨k, hk, hrest⟩ := Option.bind_eq_some_iff.mp h
    obtain ⟨top', hstep, rfl⟩ := saved_step_of_depthAfter? g hsaved hk
    rw [read_cons]
    exact ih hstep hrest

/-- A word with matching brackets leaves every kept pose alone. -/
theorem saved_read_of_balanced {w : Word} (h : w.Balanced) : (t.read g w).2.saved = t.saved := by
  obtain ⟨top, hsaved, htop⟩ :=
    saved_read_of_depth? g (List.nil_append t.saved).symm (Word.balanced_iff.mp h)
  rw [hsaved, List.length_eq_zero_iff.mp htop, List.nil_append]

/-- **Open brackets are kept poses,** along every word whose closing brackets find one open. -/
theorem length_saved_read {w : Word} {m : Nat} (h : Word.depth? t.saved.length w = some m) :
    (t.read g w).2.saved.length = m := by
  obtain ⟨top, hsaved, htop⟩ := saved_read_of_depth? g (List.append_nil t.saved).symm h
  rw [hsaved, List.append_nil, htop]

end Turtle

/-! ### Matched brackets -/

/-- Every closing bracket of a word finds a kept pose when the turtle comes to it. -/
def Walk.Matched {α : Type} [Scalar α] (g : Gait α) (w : Word) : Prop :=
  ∀ u v, w = u ++ ']' :: v → ((Turtle.start g).read g u).2.saved ≠ []

namespace Word.Balanced

variable {α : Type} [Scalar α] {w : Word}

/-- In a word with matching brackets every closing one finds a pose. -/
theorem matched (h : w.Balanced) (g : Gait α) : Walk.Matched g w := by
  rintro u v rfl hnil
  have hdepth := balanced_iff.mp h
  rw [depth?_append] at hdepth
  obtain ⟨k, hk, hrest⟩ := Option.bind_eq_some_iff.mp hdepth
  -- No pose is kept, so no bracket is open, and the closing one stops the count.
  have hkept : ((Turtle.start g).read g u).2.saved.length = k := Turtle.length_saved_read g hk
  rw [hnil] at hkept
  subst hkept
  cases hrest

/-- A word with matching brackets leaves no pose. -/
theorem saved_read (h : w.Balanced) (g : Gait α) :
    ((Turtle.start g).read g w).2.saved = [] :=
  Turtle.saved_read_of_balanced g h

end Word.Balanced

end TurtleCurves
