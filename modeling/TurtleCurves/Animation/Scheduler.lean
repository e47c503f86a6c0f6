import TurtleCurves.Grammar.Derivation

namespace TurtleCurves

/-!
# Automatic steps

A run takes steps of growth on a cadence, until its budget is spent, the word is too long, or
it is cancelled.  Nothing happens by itself: the host asks at moments of its own, and at most
one step is pending.

* `Pace` — delay and budget;
* `Run`, `Scheduler` — the active run, if any;
* `Scheduler.toggle` — start or cancel a run;
* `Scheduler.poll` — take the pending step if it is due.

Moments are milliseconds on the host's clock.
-/

/-- A moment in milliseconds. -/
abbrev Moment := Nat

/-- How fast and how far a run goes. -/
structure Pace where
  /-- The delay before every step, in milliseconds. -/
  delay : Nat
  /-- The steps of one run, counted from the iteration it starts at. -/
  maxSteps : Nat
  deriving DecidableEq, Repr

/-- Half a second between five steps. -/
def Pace.default : Pace := ⟨500, 5⟩

/-- Why a run ends. -/
inductive StopReason where
  /-- Its steps are taken. -/
  | budgetExhausted
  /-- The word has grown past the ceiling of runs. -/
  | tooLong
  /-- A step was refused. -/
  | refused
  /-- It was called off. -/
  | cancelled
  deriving DecidableEq, Repr

/-- What comes of asking. -/
inductive Tick where
  /-- No run is active. -/
  | idle
  /-- The pending step is not due. -/
  | waiting
  /-- One step was taken, and the next is pending. -/
  | stepped
  /-- The run has ended. -/
  | finished (reason : StopReason)
  deriving DecidableEq, Repr

/-- An active run. -/
structure Run where
  startIteration : Nat
  /-- When the pending step is due. -/
  due : Moment
  deriving DecidableEq, Repr

/-- The active run, if any. -/
structure Scheduler where
  run : Option Run
  deriving DecidableEq, Repr

namespace Scheduler

variable {α : Type}

/-- No run is active. -/
def idle : Scheduler := ⟨none⟩

/-- A run is active. -/
def isActive (s : Scheduler) : Bool := s.run.isSome

/-- No run is active any more. -/
def stop (_ : Scheduler) : Scheduler := idle

/-- Why a run that started at `start` has to end now. -/
def abort? (d : Derivation α) (pace : Pace) (ceiling start : Nat) : Option StopReason :=
  if pace.maxSteps ≤ d.iteration - start then some .budgetExhausted
  else if ceiling < d.size then some .tooLong
  else none

/-- A run goes on exactly while steps are left and the word is short enough. -/
theorem abort?_eq_none_iff {d : Derivation α} {pace : Pace} {ceiling start : Nat} :
    abort? d pace ceiling start = none ↔
      d.iteration - start < pace.maxSteps ∧ d.size ≤ ceiling := by
  unfold abort?
  split
  · next h => simp; omega
  · split <;> simp <;> omega

/-- A run whose steps are taken ends for that reason, however long the word is. -/
theorem abort?_eq_budgetExhausted_iff {d : Derivation α} {pace : Pace} {ceiling start : Nat} :
    abort? d pace ceiling start = some .budgetExhausted ↔
      pace.maxSteps ≤ d.iteration - start := by
  unfold abort?
  split
  · next h => simp [h]
  · next h => split <;> simp [h]

/-- A run has no other reasons to end by itself. -/
theorem abort?_eq_some {d : Derivation α} {pace : Pace} {ceiling start : Nat}
    {reason : StopReason} (h : abort? d pace ceiling start = some reason) :
    reason = .budgetExhausted ∨ reason = .tooLong := by
  unfold abort? at h
  split at h
  · cases h; exact .inl rfl
  · split at h
    · cases h; exact .inr rfl
    · cases h

/-- Starts a run from the present iteration, or calls the active one off.  A reason is given
when no run is active afterwards. -/
def toggle (s : Scheduler) (d : Derivation α) (pace : Pace) (ceiling : Nat) (now : Moment) :
    Option StopReason × Scheduler :=
  if s.isActive then (some .cancelled, s.stop)
  else
    match abort? d pace ceiling d.iteration with
    | some reason => (some reason, idle)
    | none => (none, ⟨some ⟨d.iteration, now + pace.delay⟩⟩)

/-- Takes the pending step if it is due.  The step is refused by the manual ceiling; whether
the run goes on is decided after it. -/
def poll (s : Scheduler) (d : Derivation α) (pace : Pace) (manualCeiling ceiling : Nat)
    (now : Moment) : Tick × Scheduler × Derivation α :=
  match s.run with
  | none => (.idle, s, d)
  | some run =>
    if now < run.due then (.waiting, s, d)
    else
      match d.growWithin manualCeiling with
      | .error _ => (.finished .refused, s.stop, d)
      | .ok d =>
        match abort? d pace ceiling run.startIteration with
        | some reason => (.finished reason, idle, d)
        | none => (.stepped, ⟨some { run with due := now + pace.delay }⟩, d)

/-- The time until the pending step; none if it is overdue. -/
def untilDue (s : Scheduler) (now : Moment) : Option Nat := s.run.map fun run => run.due - now

end Scheduler

end TurtleCurves
