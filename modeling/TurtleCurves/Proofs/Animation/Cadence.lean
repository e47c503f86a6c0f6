import Mathlib.Data.List.Induction
import TurtleCurves.Proofs.Animation.Budget
import TurtleCurves.Proofs.Animation.Guard

namespace TurtleCurves

/-!
# The cadence of a run

A run takes a step when it is asked to, and no earlier than the step is due.  The host may ask as
often and as late as it likes, and its clock may go back.

* `Explorer.tick_derivation` — a tick takes one step of growth at most;
* `Explorer.Steps`, `Explorer.Ends`, `Explorer.tick_of_reachable` — what a tick does: nothing
  without a run, nothing before the step is due, and from then on a step or the end of the run;
* `Explorer.Deadline` — the pending step is due one delay after the start of the run or its previous
  step, whichever armed it;
* `Explorer.exists_deadline` — the pending step of every history is;
* `Explorer.due_le_of_active`, `Explorer.delay_le_of_arms` — deadlines never become earlier along a
  run, so two steps of a run are at least a delay apart;
* `Explorer.runs_keep_cadence` — all of it, for every history.

A delay and a moment only have to be counted in the same unit.
-/

variable {α : Type}

/-- The operation looks at the clock, which reads `now`. -/
def Operation.IsAt (now : Moment) (op : Operation α) : Prop := op = .toggle now ∨ op = .tick now

namespace Explorer

/-! ### One tick -/

/-- **One step at most.** A tick leaves the word on show as it is, or applies the rules once. -/
theorem tick_derivation (e : Explorer α) (now : Moment) :
    (e.tick now).2.derivation = e.derivation ∨
      ∃ d, e.derivation = some d ∧ (e.tick now).2.derivation = some d.grow := by
  cases hd : e.derivation with
  | none => exact .inl (by rw [tick_of_none hd]; exact hd)
  | some d =>
    -- Without a run, before its due time or past the size limit a tick shows the same word.
    cases hr : e.scheduler.run with
    | none => exact .inl (by rw [tick_of_run_eq_none hr]; exact hd)
    | some r =>
      by_cases hearly : now < r.due
      · exact .inl (by rw [tick_of_early hr hd hearly]; exact hd)
      have hdue : r.due ≤ now := Nat.le_of_not_lt hearly
      by_cases hsize : d.size ≤ e.limits.manual
      · refine .inr ⟨d, rfl, ?_⟩
        rcases tick_of_le hr hd hdue hsize with ⟨_, _, h⟩ | ⟨_, h⟩ <;> rw [h]
      · exact .inl (by rw [tick_of_lt hr hd hdue (Nat.lt_of_not_le hsize)]; exact hd)

variable [Scalar α]

/-- The tick takes a step after which the run goes on: the next step is due one delay later. -/
structure Steps (e : Explorer α) (now : Moment) : Prop where
  answer : (e.tick now).1 = .stepped
  grows : e.autoStep (.tick now) = true
  next : ∃ r, (e.tick now).2.scheduler.run = some r ∧ r.due = now + e.pace.delay

/-- The run is over with the tick. -/
structure Ends (e : Explorer α) (now : Moment) : Prop where
  answer : ∃ reason, (e.tick now).1 = .finished reason
  ended : (e.tick now).2.isAnimating = false

/-- A tick that is not too early takes the step or ends the run. -/
theorem steps_or_ends {e : Explorer α} {now : Moment} {r : Run} {d : Derivation α}
    (hr : e.scheduler.run = some r) (hd : e.derivation = some d) (hdue : r.due ≤ now) :
    e.Steps now ∨ e.Ends now := by
  by_cases hsize : d.size ≤ e.limits.manual
  · have hgrows : e.grows (.tick now) = true := tick_grows_iff.mpr ⟨r, d, hr, hd, hdue, hsize⟩
    rcases tick_of_le hr hd hdue hsize with ⟨reason, _, h⟩ | ⟨_, h⟩
    · exact .inr ⟨⟨reason, by rw [h]⟩, by rw [h]; rfl⟩
    · exact .inl ⟨by rw [h], hgrows, by rw [h]; exact ⟨_, rfl, rfl⟩⟩
  · have h := tick_of_lt hr hd hdue (Nat.lt_of_not_le hsize)
    exact .inr ⟨⟨.refused, by rw [h]⟩, by rw [h]; rfl⟩

/-- **What a tick does.** Without a run it does nothing.  It does nothing before the pending step
is due, and from then on it takes the step or ends the run. -/
theorem tick_of_reachable {e : Explorer α} (he : Reachable e) (now : Moment) :
    e.tick now = (.idle, e) ∧ e.scheduler.run = none ∨
      ∃ r, e.scheduler.run = some r ∧
        (e.tick now = (.waiting, e) ∧ now < r.due ∨
          (e.Steps now ∨ e.Ends now) ∧ r.due ≤ now) := by
  cases hr : e.scheduler.run with
  | none => exact .inl ⟨tick_of_run_eq_none hr now, rfl⟩
  | some r =>
    -- A run of a reachable state has a word to grow.
    obtain ⟨d, hd, _⟩ := start_le_iteration he hr
    by_cases hearly : now < r.due
    · exact .inr ⟨r, rfl, .inl ⟨tick_of_early hr hd hearly, hearly⟩⟩
    · have hdue : r.due ≤ now := Nat.le_of_not_lt hearly
      exact .inr ⟨r, rfl, .inr ⟨steps_or_ends hr hd hdue, hdue⟩⟩

theorem steps_of_answer {e : Explorer α} (he : Reachable e) {now : Moment}
    (h : (e.tick now).1 = .stepped) : e.Steps now := by
  rcases tick_of_reachable he now with ⟨htick, _⟩ | ⟨_, _, ⟨htick, _⟩ | ⟨hsteps | hends, _⟩⟩
  · rw [htick] at h
    cases h
  · rw [htick] at h
    cases h
  · exact hsteps
  · obtain ⟨reason, hout⟩ := hends.answer
    rw [hout] at h
    cases h

/-- A tick of a run answers for a step or for the end of the run exactly from the deadline on. -/
theorem answers_iff_due_le {e : Explorer α} (he : Reachable e) {r : Run}
    (hr : e.scheduler.run = some r) (now : Moment) :
    ((e.tick now).1 = .stepped ∨ ∃ reason, (e.tick now).1 = .finished reason) ↔ r.due ≤ now := by
  rcases tick_of_reachable he now with ⟨_, hnone⟩ | ⟨r', hr', ⟨h, hearly⟩ | ⟨h, hdue⟩⟩
  · rw [hr] at hnone
    cases hnone
  all_goals obtain rfl := Option.some.inj (hr.symm.trans hr')
  · rw [h]
    exact iff_of_false (by simp) (Nat.not_le_of_lt hearly)
  · exact iff_of_true (h.imp Steps.answer Ends.answer) hdue

/-- **Nothing at all.** A tick that finds nothing to do leaves everything as it is. -/
theorem tick_eq_self {e : Explorer α} (he : Reachable e) {now : Moment}
    (h : (e.tick now).1 = .idle ∨ (e.tick now).1 = .waiting) : (e.tick now).2 = e := by
  rcases tick_of_reachable he now with ⟨htick, _⟩ | ⟨_, _, ⟨htick, _⟩ | ⟨hdone, _⟩⟩
  · rw [htick]
  · rw [htick]
  · exfalso
    rcases hdone with ⟨hout, _, _⟩ | ⟨⟨_, hout⟩, _⟩ <;> rw [hout] at h <;> simp at h

/-- **No wake-up is lost.** Whoever sleeps until the pending step is due does not wait again. -/
theorem tick_ne_waiting {e : Explorer α} (he : Reachable e) {r : Run}
    (hr : e.scheduler.run = some r) (now : Moment) :
    ∃ wait, e.scheduler.untilDue now = some wait ∧
      ∀ later, now + wait ≤ later → (e.tick later).1 ≠ .waiting := by
  refine ⟨r.due - now, by rw [Scheduler.untilDue, hr]; rfl, fun later hlater hwaiting => ?_⟩
  have hdue : r.due ≤ later :=
    Nat.le_trans (Nat.sub_le_iff_le_add'.mp (Nat.le_refl (r.due - now))) hlater
  rcases (answers_iff_due_le he hr later).mpr hdue with hout | ⟨_, hout⟩ <;>
    rw [hwaiting] at hout <;> cases hout

/-! ### The deadline -/

/-- After the history `ops` from `start` the step of `r` is pending.  It was armed by `op` after the
part `before`, at the moment `now`, to be due one delay later; since then, in the part `after`, the
run has gone on and has taken no step. -/
structure Deadline (start : Explorer α) (ops : List (Operation α)) (r : Run)
    (before : List (Operation α)) (op : Operation α) (after : List (Operation α)) (now : Moment) :
    Prop where
  split : ops = before ++ op :: after
  arms : (start.performAll before).Arms op
  clock : op.IsAt now
  due : r.due = now + (start.performAll before).pace.delay
  pending : Along (fun e op => e.scheduler.run = some r ∧ e.autoStep op = false)
    ((start.performAll before).perform op) after

namespace Deadline

variable {start : Explorer α} {ops before after : List (Operation α)} {r : Run} {op : Operation α}
  {now : Moment}

/-- The deadline of a step that has just been armed. -/
theorem armed (harms : (start.performAll ops).Arms op) (hclock : op.IsAt now)
    (hdue : r.due = now + (start.performAll ops).pace.delay) :
    Deadline start (ops ++ [op]) r ops op [] now := ⟨rfl, harms, hclock, hdue, trivial⟩

/-- The deadline stays when an operation neither takes the step nor ends the run. -/
theorem extend (h : Deadline start ops r before op after now) {next : Operation α}
    (hrun : (start.performAll ops).scheduler.run = some r)
    (hauto : (start.performAll ops).autoStep next = false) :
    Deadline start (ops ++ [next]) r before op (after ++ [next]) now := by
  refine ⟨by rw [h.split]; simp, h.arms, h.clock, h.due, along_append.mpr ⟨h.pending, ?_, trivial⟩⟩
  rw [h.split, performAll_append, performAll_cons] at hrun hauto
  exact ⟨hrun, hauto⟩

end Deadline

/-- **The deadline.** The pending step of a run is due one delay after the start of the run or after
its previous step. -/
theorem exists_deadline {start : Explorer α} (hstart : start.scheduler.run = none)
    (ops : List (Operation α)) {r : Run} (hr : (start.performAll ops).scheduler.run = some r) :
    ∃ before op after now, Deadline start ops r before op after now := by
  -- By the last operation: it keeps the deadline, sets a new one, or leaves no run.
  induction ops using List.reverseRecOn generalizing r with
  | nil =>
    rw [performAll_nil, hstart] at hr
    cases hr
  | append_singleton ops op ih =>
    rw [performAll_append] at hr
    cases (start.performAll ops).effect_perform op with
    | quiet hf hshow hrun =>
      have hauto : (start.performAll ops).autoStep op = false := by
        rw [autoStep, grows_of_measures hf hshow, Bool.and_false]
      have hrun' : (start.performAll ops).scheduler.run = some r := hrun ▸ hr
      obtain ⟨before, arming, after, now, h⟩ := ih hrun'
      exact ⟨before, arming, _, now, h.extend hrun' hauto⟩
    | byHand hop _ _ _ hrun =>
      -- A step by hand is no step of the run.
      have hauto : (start.performAll ops).autoStep op = false := by
        rcases hop with rfl | rfl <;> rfl
      have hrun' : (start.performAll ops).scheduler.run = some r := hrun ▸ hr
      obtain ⟨before, arming, after, now, h⟩ := ih hrun'
      exact ⟨before, arming, _, now, h.extend hrun' hauto⟩
    | @started now _ _ _ _ _ _ hrun hout =>
      obtain rfl := Option.some.inj ((congrArg Scheduler.run hrun).symm.trans hr)
      exact ⟨ops, _, [], now, .armed (.inl ⟨now, rfl, hout⟩) (.inl rfl) rfl⟩
    | @stepped now _ _ _ _ _ _ _ _ _ hrun hout =>
      obtain rfl := Option.some.inj ((congrArg Scheduler.run hrun).symm.trans hr)
      exact ⟨ops, _, [], now, .armed (.inr ⟨now, rfl, hout⟩) (.inr rfl) rfl⟩
    -- In every other case there is no run afterwards.
    | replaced _ _ hrun | rewound _ _ hrun | calledOff _ hrun _ | finished _ _ _ _ _ _ hrun _
    | refused _ _ _ _ _ hrun _ | dropped _ _ hrun _ =>
      cases (congrArg Scheduler.run hrun).symm.trans hr

/-! ### Steps of one run -/

/-- A deadline does not become earlier while the run lasts. -/
theorem due_le_perform {e : Explorer α} {op : Operation α} {r r' : Run}
    (hr : e.scheduler.run = some r) (hr' : (e.perform op).scheduler.run = some r') :
    r.due ≤ r'.due := by
  cases e.effect_perform op with
  | quiet _ _ hrun =>
    rw [hrun, hr] at hr'
    exact Nat.le_of_eq (congrArg Run.due (Option.some.inj hr'))
  | byHand _ _ _ _ hrun =>
    rw [hrun, hr] at hr'
    exact Nat.le_of_eq (congrArg Run.due (Option.some.inj hr'))
  | started hidle =>
    rw [hr] at hidle
    cases hidle
  | stepped hrun₀ _ hdue _ _ _ hrun _ =>
    obtain rfl := Option.some.inj (hr.symm.trans hrun₀)
    obtain rfl := Option.some.inj ((congrArg Scheduler.run hrun).symm.trans hr')
    -- The next step is due one delay after a moment at which this one was.
    exact Nat.le_add_right_of_le hdue
  | replaced _ _ hrun | rewound _ _ hrun | calledOff _ hrun _ | finished _ _ _ _ _ _ hrun _
  | refused _ _ _ _ _ hrun _ | dropped _ _ hrun _ =>
    cases (congrArg Scheduler.run hrun).symm.trans hr'

/-- Nor along a history in which it lasts. -/
theorem due_le_of_active {e : Explorer α} {r r' : Run} (hr : e.scheduler.run = some r)
    {ops : List (Operation α)} (hactive : Along (fun e _ => e.isAnimating = true) e ops)
    (hr' : (e.performAll ops).scheduler.run = some r') : r.due ≤ r'.due := by
  induction ops using List.reverseRecOn generalizing r' with
  | nil => exact Nat.le_of_eq (congrArg Run.due (Option.some.inj (hr.symm.trans hr')))
  | append_singleton ops op ih =>
    obtain ⟨hactive, hlast, _⟩ := along_append.mp hactive
    obtain ⟨r'', hr''⟩ := Option.isSome_iff_exists.mp hlast
    rw [performAll_append] at hr'
    exact Nat.le_trans (ih hactive hr'') (due_le_perform hr'' hr')

/-- What is armed is due one delay later. -/
theorem run_of_arms {e : Explorer α} (he : Reachable e) {op : Operation α} {now : Moment}
    (harms : e.Arms op) (hclock : op.IsAt now) :
    ∃ r, (e.perform op).scheduler.run = some r ∧ r.due = now + e.pace.delay := by
  rcases harms with ⟨t, rfl, hout⟩ | ⟨t, rfl, hout⟩
  -- A run is armed by the toggle that starts it or by the tick that takes its next step.
  · obtain rfl : t = now := by simpa [Operation.IsAt] using hclock
    show ∃ r, (e.toggle t).2.scheduler.run = some r ∧ r.due = t + e.pace.delay
    rcases e.toggle_cases t with h | ⟨reason, h⟩ | ⟨d, _, _, _, h⟩
    · rw [h] at hout
      cases hout
    · rw [h] at hout
      cases hout
    · rw [h]
      exact ⟨_, rfl, rfl⟩
  · obtain rfl : t = now := by simpa [Operation.IsAt] using hclock
    exact (steps_of_answer he hout).next

/-- **Steps are a delay apart.** From the start of a run, or one of its steps, to any later step of
it there is at least the delay that is in force at the first. -/
theorem delay_le_of_arms {e : Explorer α} (he : Reachable e) {op : Operation α} {now : Moment}
    (harms : e.Arms op) (hclock : op.IsAt now) {ops : List (Operation α)} {later : Moment}
    (hactive : Along (fun e _ => e.isAnimating = true) (e.perform op) ops)
    (hstep : ((e.perform op).performAll ops).autoStep (.tick later) = true) :
    now + e.pace.delay ≤ later := by
  -- The later step meets its own deadline, which is no earlier than the one that is set here.
  obtain ⟨r, hr, hdue⟩ := run_of_arms he harms hclock
  obtain ⟨r', _, hr', _, hdue', _⟩ := tick_grows_iff.mp ((Bool.and_eq_true _ _).mp hstep).2
  rw [← hdue]
  exact Nat.le_trans (due_le_of_active hr hactive hr') hdue'

/-! ### Whole histories -/

/-- **Runs keep their cadence.** After every history a tick takes one step of growth at most, and
it changes nothing when it finds no run or finds it waiting.  The pending step of a run is due one
delay after the start of the run or after its previous step.  A tick answers for a step or for the
end of the run exactly from the deadline on, and then the run takes the step or ends; whoever
sleeps until the deadline does not wait again.  From the start of a run, or one of its steps, to any
later step of it there is at least the delay that is in force at the first. -/
theorem runs_keep_cadence (s : Settings α) (width height : α) (ops : List (Operation α)) :
    let start := ofSettings s width height
    let e := start.performAll ops
    (∀ now, (e.tick now).2.derivation = e.derivation ∨
      ∃ d, e.derivation = some d ∧ (e.tick now).2.derivation = some d.grow) ∧
    (∀ now, (e.tick now).1 = .idle ∨ (e.tick now).1 = .waiting → (e.tick now).2 = e) ∧
    (∀ r, e.scheduler.run = some r →
      (∃ before op after now, Deadline start ops r before op after now) ∧
      (∀ now, ((e.tick now).1 = .stepped ∨ ∃ reason, (e.tick now).1 = .finished reason) ↔
        r.due ≤ now) ∧
      (∀ now, r.due ≤ now → e.Steps now ∨ e.Ends now) ∧
      ∀ now, ∃ wait, e.scheduler.untilDue now = some wait ∧
        ∀ later, now + wait ≤ later → (e.tick later).1 ≠ .waiting) ∧
    ∀ op now, e.Arms op → op.IsAt now → ∀ more later,
      Along (fun e _ => e.isAnimating = true) (e.perform op) more →
      ((e.perform op).performAll more).autoStep (.tick later) = true →
      now + e.pace.delay ≤ later := by
  intro start e
  have he : Reachable e := (Reachable.start s width height).performAll ops
  refine ⟨e.tick_derivation, fun now h => tick_eq_self he h, fun r hr => ⟨?_, ?_, ?_, ?_⟩, ?_⟩
  · exact exists_deadline rfl ops hr
  · exact answers_iff_due_le he hr
  -- A run is only ever under way over a word.
  · intro now hdue
    obtain ⟨d, hd, _⟩ := start_le_iteration he hr
    exact steps_or_ends hr hd hdue
  · exact tick_ne_waiting he hr
  · intro op now harms hclock more later hactive hstep
    exact delay_le_of_arms he harms hclock hactive hstep

/-- A longer delay is set while a step is pending.  The step is due after the old delay all the
same, it is taken late, and the one after it keeps the new delay from then on. -/
theorem runs_keep_cadence_of_late_tick :
    let start := ofSettings (Settings.default : Settings Float) 100 100
    let ops : List (Operation Float) :=
      [.load "koch", .setPace ⟨10, 3⟩, .toggle 0, .setPace ⟨50, 3⟩]
    let e := start.performAll ops
    (e.tick 9).2 = e ∧
      (∃ before op after now, Deadline start ops ⟨0, 10⟩ before op after now) ∧
      (e.Steps 25 ∨ e.Ends 25) ∧ 25 + e.pace.delay ≤ 75 := by
  intro start ops e
  obtain ⟨_, hwaits, hruns, happart⟩ :=
    runs_keep_cadence (Settings.default : Settings Float) 100 100 ops
  have hrun : e.scheduler.run = some ⟨0, 10⟩ := by decide +kernel
  obtain ⟨hdeadline, _, hdone, _⟩ := hruns _ hrun
  refine ⟨hwaits 9 (.inr (by decide +kernel)), hdeadline, hdone 25 (by decide), ?_⟩
  -- The step comes late, at 25; by the pace set meanwhile the next one is due 50 after that.
  exact happart (.tick 25) 25 (.inr ⟨25, rfl, by decide +kernel⟩) (.inr rfl) [] 75 trivial
    (by decide +kernel)

end Explorer

end TurtleCurves
