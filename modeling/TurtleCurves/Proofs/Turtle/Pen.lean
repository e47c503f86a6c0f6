import TurtleCurves.Proofs.Grammar.Unclosed
import TurtleCurves.Proofs.Turtle.Depth

namespace TurtleCurves

/-!
# Where actions leave the pen

A consumer of a walk is told actions and no poses, but it can tell from them where the pen is.

* `Action.brackets` — the brackets that actions stand for, so that a push has a partner where its
  bracket has one;
* `Action.PenAt` — where a list of actions leaves the pen, said of the actions alone: at the
  origin, at the end of the stroke drawn last, or where it was at the push that matches the latest
  pop;
* `Action.PenAt.unique` — which is one place;
* `Turtle.TracedBy` — the turtle's pen is where the actions leave it, and every kept position is
  where they left it at a push that is still open;
* `Turtle.TracedBy.step`, `Turtle.TracedBy.read` — every character and every word keeps that.
-/

variable {α : Type}

namespace Action

/-! ### Brackets -/

/-- The bracket that an action stands for. -/
def bracket? : Action α → Option Char
  | .push => some '['
  | .pop => some ']'
  | .draw _ | .turn _ => none

/-- The brackets that a list of actions stands for. -/
def brackets (actions : List (Action α)) : Word := actions.filterMap bracket?

@[simp] theorem brackets_append (as bs : List (Action α)) :
    brackets (as ++ bs) = brackets as ++ brackets bs := List.filterMap_append

@[simp] theorem brackets_cons_push (as : List (Action α)) :
    brackets (.push :: as) = '[' :: brackets as := rfl

/-- Two places of a list are the same, or one lies behind the other. -/
theorem same_or_behind {before before' rest rest' : List (Action α)} {a a' : Action α}
    (h : before ++ a :: rest = before' ++ a' :: rest') :
    (before = before' ∧ a = a') ∨ (∃ u, rest = u ++ a' :: rest') ∨ ∃ u, rest' = u ++ a :: rest := by
  rcases List.append_eq_append_iff.mp h with ⟨between, rfl, hrest⟩ | ⟨between, rfl, hrest⟩
  · rcases List.cons_eq_append_iff.mp hrest with ⟨rfl, hsame⟩ | ⟨u, rfl, hu⟩
    · exact .inl ⟨(List.append_nil before).symm, (List.cons.inj hsame).1.symm⟩
    · exact .inr (.inl ⟨u, hu⟩)
  · rcases List.cons_eq_append_iff.mp hrest with ⟨rfl, hsame⟩ | ⟨u, rfl, hu⟩
    · exact .inl ⟨List.append_nil before', (List.cons.inj hsame).1⟩
    · exact .inr (.inr ⟨u, hu⟩)

/-- Behind a push that stays open brackets do not match. -/
theorem not_balanced_of_push {u x : List (Action α)} (hx : (brackets x).Balanced) :
    ¬ (brackets (u ++ .push :: x)).Balanced := by
  rw [brackets_append, brackets_cons_push, Word.balanced_iff, Word.depth?_append]
  intro hend
  obtain ⟨k, -, hk⟩ := Option.bind_eq_some_iff.mp hend
  rw [Word.depth?, Word.depthAfter?_open, Option.bind_some, hx.depth?_eq] at hk
  exact Nat.succ_ne_zero k (Option.some.inj hk)

/-- There is only one push from which on the brackets match. -/
theorem push_inj {before before' inside inside' : List (Action α)}
    (h : before ++ .push :: inside = before' ++ .push :: inside')
    (hinside : (brackets inside).Balanced) (hinside' : (brackets inside').Balanced) :
    before = before' := by
  rcases same_or_behind h with ⟨hsame, -⟩ | ⟨u, rfl⟩ | ⟨u, rfl⟩
  · exact hsame
  · exact absurd hinside (not_balanced_of_push hinside')
  · exact absurd hinside' (not_balanced_of_push hinside)

/-! ### The pen -/

/-- The action leaves the pen where it is. -/
def isStill : Action α → Bool
  | .turn _ | .push => true
  | .draw _ | .pop => false

/-- A list with an action that moves the pen is not still. -/
theorem not_still_of_mem {before quiet : List (Action α)} {a : Action α} (ha : a.isStill = false) :
    ¬ ∀ b ∈ before ++ a :: quiet, b.isStill = true := by
  intro h
  exact ne_true_of_eq_false ha (h a (List.mem_append_right before List.mem_cons_self))

/-- There is only one action that moves the pen last. -/
theorem last_inj {before before' quiet quiet' : List (Action α)} {a a' : Action α}
    (h : before ++ a :: quiet = before' ++ a' :: quiet')
    (ha : a.isStill = false) (ha' : a'.isStill = false)
    (hquiet : ∀ b ∈ quiet, b.isStill = true) (hquiet' : ∀ b ∈ quiet', b.isStill = true) :
    before = before' ∧ a = a' := by
  rcases same_or_behind h with hsame | ⟨u, rfl⟩ | ⟨u, rfl⟩
  · exact hsame
  · exact absurd hquiet (not_still_of_mem ha')
  · exact absurd hquiet' (not_still_of_mem ha)

variable [Scalar α]

/-- Where a list of actions leaves the pen. -/
inductive PenAt : List (Action α) → Point α → Prop
  /-- Nothing was drawn and nothing restored: at the origin. -/
  | origin {quiet : List (Action α)} (hquiet : ∀ b ∈ quiet, b.isStill = true) :
    PenAt quiet Point.origin
  /-- A stroke was drawn last: at its end. -/
  | drawn (before : List (Action α)) (s : Stroke α) {quiet : List (Action α)}
    (hquiet : ∀ b ∈ quiet, b.isStill = true) : PenAt (before ++ .draw s :: quiet) s.stop
  /-- A position was restored last: where the pen was at the push that matches. -/
  | restored {before inside quiet : List (Action α)} {p : Point α}
    (hinside : (brackets inside).Balanced) (hquiet : ∀ b ∈ quiet, b.isStill = true)
    (hp : PenAt before p) : PenAt (before ++ .push :: inside ++ .pop :: quiet) p

namespace PenAt

variable {actions : List (Action α)} {p q : Point α}

/-- An action that does not move the pen leaves it where it is. -/
theorem still (h : PenAt actions p) {a : Action α} (ha : a.isStill = true) :
    PenAt (actions ++ [a]) p := by
  have hconcat {quiet : List (Action α)} (hquiet : ∀ b ∈ quiet, b.isStill = true) :
      ∀ b ∈ quiet ++ [a], b.isStill = true := by
    simp only [List.mem_append, List.mem_singleton]
    rintro b (hb | rfl)
    · exact hquiet b hb
    · exact ha
  -- Whatever put the pen there, the action after it does not move it.
  cases h with
  | origin hquiet => exact .origin (hconcat hquiet)
  | drawn before s hquiet =>
    rw [List.append_assoc, List.cons_append]
    exact .drawn before s (hconcat hquiet)
  | restored hinside hquiet hp =>
    rw [List.append_assoc, List.cons_append]
    exact .restored hinside (hconcat hquiet) hp

/-- **One place.** Actions leave the pen at one place only. -/
theorem unique (hp : PenAt actions p) (hq : PenAt actions q) : p = q := by
  induction hp generalizing q with
  | origin hquiet =>
    cases hq with
    | origin _ => rfl
    | drawn _ _ _ => exact absurd hquiet (not_still_of_mem rfl)
    | restored _ _ _ => exact absurd hquiet (not_still_of_mem rfl)
  | @drawn before s quiet hquiet =>
    -- The list is not a variable, so its splitting has to be kept as an equation.
    generalize hactions : before ++ .draw s :: quiet = actions at hq
    cases hq with
    | origin hquiet' =>
      subst hactions
      exact absurd hquiet' (not_still_of_mem rfl)
    | drawn before' s' hquiet' =>
      obtain ⟨-, hsame⟩ := last_inj hactions rfl rfl hquiet hquiet'
      rw [Action.draw.inj hsame]
    | restored _ hquiet' _ => cases (last_inj hactions rfl rfl hquiet hquiet').2
  | @restored before inside quiet p hinside hquiet _ ih =>
    generalize hactions : before ++ .push :: inside ++ .pop :: quiet = actions at hq
    cases hq with
    | origin hquiet' =>
      subst hactions
      exact absurd hquiet' (not_still_of_mem rfl)
    | drawn _ _ hquiet' => cases (last_inj hactions rfl rfl hquiet hquiet').2
    | restored hinside' hquiet' hq =>
      -- The last pops are the same one, hence so are the pushes that match it.
      obtain ⟨hpushes, -⟩ := last_inj hactions rfl rfl hquiet hquiet'
      rw [← push_inj hpushes hinside hinside'] at hq
      exact ih hq

end PenAt

/-- Where a list of actions left the pen at the pushes that are still open, the last one first. -/
inductive Saves : List (Action α) → List (Point α) → Prop
  | nil (actions : List (Action α)) : Saves actions []
  | cons {before inside : List (Action α)} {p : Point α} {ps : List (Point α)}
    (hinside : (brackets inside).Balanced) (hp : PenAt before p) (hps : Saves before ps) :
    Saves (before ++ .push :: inside) (p :: ps)

/-- Actions whose brackets match leave every open push open. -/
theorem Saves.append {actions more : List (Action α)} {ps : List (Point α)}
    (h : Saves actions ps) (hmore : (brackets more).Balanced) : Saves (actions ++ more) ps := by
  cases h with
  | nil => exact .nil _
  | cons hinside hp hps =>
    rw [List.append_assoc, List.cons_append]
    refine .cons ?_ hp hps
    rw [brackets_append]
    exact hinside.append hmore

end Action

/-! ### The turtle's pen -/

namespace Turtle

variable [Scalar α]

/-- The actions so far tell where the turtle's pen is and where it can go back to. -/
structure TracedBy (t : Turtle α) (actions : List (Action α)) : Prop where
  pen : Action.PenAt actions t.pose.position
  saved : Action.Saves actions (t.saved.map Pose.position)

namespace TracedBy

variable {t : Turtle α} {actions : List (Action α)}

/-- At first the pen is at the origin. -/
theorem start (g : Gait α) : (start g).TracedBy [] := by
  refine ⟨.origin ?_, .nil []⟩
  intro b hb
  cases hb

/-- **One character.** -/
theorem step (h : t.TracedBy actions) (g : Gait α) (c : Char) :
    (t.step g c).2.TracedBy (actions ++ (t.step g c).1.toList) := by
  have hnone : ∀ b ∈ ([] : List (Action α)), b.isStill = true := fun _ hb => by cases hb
  unfold Turtle.step
  cases Symbol.ofChar c with
  | letter c => exact ⟨.drawn actions _ hnone, h.saved.append Word.balanced_nil⟩
  | turnLeft => exact ⟨h.pen.still rfl, h.saved.append Word.balanced_nil⟩
  | turnRight => exact ⟨h.pen.still rfl, h.saved.append Word.balanced_nil⟩
  | push => exact ⟨h.pen.still rfl, .cons Word.balanced_nil h.pen h.saved⟩
  | pop =>
    obtain ⟨pose, saved, drawn⟩ := t
    cases saved with
    | nil =>
      rw [show ((⟨pose, [], drawn⟩ : Turtle α).react g .pop).1.toList = [] from rfl,
        List.append_nil]
      exact h
    | cons p rest =>
      obtain ⟨-, hsaved⟩ := h
      rw [List.map_cons] at hsaved
      cases hsaved with
      | @cons before inside _ _ hinside hp hps =>
        refine ⟨.restored hinside hnone hp, ?_⟩
        -- The branch that ends here lies between two pushes that stay open.
        have hbranch : (Action.brackets (.push :: inside ++ [.pop])).Balanced := by
          rw [Action.brackets_append]
          exact hinside.enclose
        have hopen := hps.append hbranch
        rwa [← List.append_assoc] at hopen
  | other c =>
    rw [show (t.react g (.other c)).1.toList = [] from rfl, List.append_nil]
    exact h

/-- **A word.** -/
theorem read (h : t.TracedBy actions) (g : Gait α) (w : Word) :
    (t.read g w).2.TracedBy (actions ++ (t.read g w).1) := by
  induction w generalizing t actions with
  | nil =>
    rw [Turtle.read_nil, List.append_nil]
    exact h
  | cons c w ih =>
    rw [Turtle.read_cons, ← List.append_assoc]
    exact ih (h.step g c)

end TracedBy

/-- **The pen of a walk.** After every word the pen is where the actions leave it. -/
theorem penAt_read (g : Gait α) (w : Word) :
    Action.PenAt ((start g).read g w).1 ((start g).read g w).2.pose.position :=
  ((TracedBy.start g).read g w).pen

end Turtle

end TurtleCurves
