import TurtleCurves.Proofs.Explorer.Growth
import TurtleCurves.Scalar.Binary64

namespace TurtleCurves

/-!
# When the limits of a run are checked

The limits of a run are checked when its next step is armed, and not when the step is taken.

* `Explorer.WithinLimits e r` — the limits hold now: steps of the budget are left, and the word is
  short enough;
* `Explorer.Awaits c r ops` — `c` is the state in which the pending step of `r` was armed, and the
  step is still pending after `ops`;
* `Explorer.Pending c r ops d d'` — in addition, the words on show then and now;
* `Explorer.pending_of_reachable` — every pending step was armed within the limits, and since then
  the word has changed by steps by hand only;
* `Explorer.withinLimits_at_step_iff` — what the limits at the step amount to: the limits at the
  arming, with the steps by hand since then counted in.
-/

namespace Explorer

variable {α : Type}

/-- The limits of the run `r` hold of the word on show. -/
def WithinLimits (e : Explorer α) (r : Run) : Prop :=
  ∃ d ∈ e.derivation, d.iteration - r.startIteration < e.pace.maxSteps ∧
    d.size ≤ e.limits.animation

instance (e : Explorer α) (r : Run) : Decidable (e.WithinLimits r) :=
  inferInstanceAs (Decidable (∃ d ∈ e.derivation,
    d.iteration - r.startIteration < e.pace.maxSteps ∧ d.size ≤ e.limits.animation))

theorem withinLimits_iff {e : Explorer α} {d : Derivation α} (hd : e.derivation = some d)
    {r : Run} :
    e.WithinLimits r ↔
      d.iteration - r.startIteration < e.pace.maxSteps ∧ d.size ≤ e.limits.animation := by
  constructor
  · rintro ⟨d', hd', hleft, hsize⟩
    obtain rfl := Option.some.inj (hd.symm.trans hd')
    exact ⟨hleft, hsize⟩
  · rintro ⟨hleft, hsize⟩
    exact ⟨d, hd, hleft, hsize⟩

variable [Scalar α]

/-- The operation arms a step: it starts a run, or takes a step of one that goes on. -/
def Arms (e : Explorer α) (op : Operation α) : Prop :=
  (∃ now, op = .toggle now ∧ (e.toggle now).1 = .ok none) ∨
    ∃ now, op = .tick now ∧ (e.tick now).1 = .stepped

/-- The pending step of the run `r` was armed in the state `c`, within the limits, and none of the
operations `ops` since then has taken the step or ended the run. -/
structure Awaits (c : Explorer α) (r : Run) (ops : List (Operation α)) : Prop where
  armed : ∃ b op, Reachable b ∧ Arms b op ∧ c = b.perform op
  limits : c.WithinLimits r
  pending : Along (fun e op => e.scheduler.run = some r ∧ e.autoStep op = false) c ops

/-- The step of `r` armed in `c` is pending after `ops`.  The word `d` was on show then, and `d'` is
on show now: it has grown by the steps by hand in between. -/
structure Pending (c : Explorer α) (r : Run) (ops : List (Operation α)) (d d' : Derivation α) :
    Prop where
  awaits : Awaits c r ops
  armed : c.derivation = some d
  shown : (c.performAll ops).derivation = some d'
  grown : d.Grown (countAlong handStep c ops) d'

namespace Pending

variable {c : Explorer α} {r : Run} {ops : List (Operation α)} {d d' : Derivation α}

/-- A step that has just been armed within the limits. -/
theorem start {b : Explorer α} {op : Operation α} (hb : Reachable b) (harms : Arms b op)
    (hlimits : (b.perform op).WithinLimits r) (hshow : (b.perform op).derivation = some d) :
    Pending (b.perform op) r [] d d :=
  ⟨⟨⟨b, op, hb, harms, rfl⟩, hlimits, trivial⟩, hshow, hshow, .refl d⟩

/-- One more operation that leaves the step pending. -/
theorem extend {op : Operation α} (h : Pending c r ops d d')
    (hrun : (c.performAll ops).scheduler.run = some r)
    (hauto : (c.performAll ops).autoStep op = false) : Awaits c r (ops ++ [op]) :=
  ⟨h.awaits.armed, h.awaits.limits, along_append.mpr ⟨h.awaits.pending, ⟨hrun, hauto⟩, trivial⟩⟩

/-- The pending step is not touched by measurements. -/
theorem quiet {op : Operation α} {f : Derivation α → Derivation α} (h : Pending c r ops d d')
    (hf : Derivation.Measures f)
    (hshow : ((c.performAll ops).perform op).derivation = (c.performAll ops).derivation.map f)
    (hrun : (c.performAll ops).scheduler.run = some r) : Pending c r (ops ++ [op]) d (f d') := by
  have hstill := grows_of_measures hf hshow
  have hauto : (c.performAll ops).autoStep op = false := by rw [autoStep, hstill, Bool.and_false]
  have hhand : (c.performAll ops).handStep op = false := by rw [handStep, hstill, Bool.and_false]
  refine ⟨h.extend hrun hauto, h.armed, ?_, ?_⟩
  · rw [performAll_append]
    exact hshow.trans (congrArg (Option.map f) h.shown)
  · rw [countAlong_concat, hhand]
    exact h.grown.measures hf

/-- The pending step stays pending when a step is made by hand, which counts. -/
theorem byHand {op : Operation α} (h : Pending c r ops d d') (hop : op = .grow ∨ op = .release)
    (hshow : ((c.performAll ops).perform op).derivation = some d'.grow)
    (hrun : (c.performAll ops).scheduler.run = some r) : Pending c r (ops ++ [op]) d d'.grow := by
  have hnotick : op.isTick = false := by rcases hop with rfl | rfl <;> rfl
  have hgrows := grows_iff.mpr ⟨d', h.shown, hshow⟩
  have hauto : (c.performAll ops).autoStep op = false := by rw [autoStep, hnotick, Bool.false_and]
  have hhand : (c.performAll ops).handStep op = true := by
    rw [handStep, hnotick, hgrows]
    rfl
  -- The run's deadline stands; what grows by one is the word and the count of steps by hand.
  refine ⟨h.extend hrun hauto, h.armed, ?_, ?_⟩
  · rw [performAll_append]
    exact hshow
  · rw [countAlong_concat, hhand]
    exact h.grown.grow

end Pending

/-- **Armed within the limits.** Every run of a reachable state has a pending step that was armed
within the limits. -/
theorem pending_of_reachable {e : Explorer α} (he : Reachable e) {r : Run}
    (hr : e.scheduler.run = some r) :
    ∃ c ops d d', Pending c r ops d d' ∧ c.performAll ops = e := by
  induction he generalizing r with
  | start s width height => cases hr
  | @step e he op ih =>
    cases e.effect_perform op with
    | quiet hf hshow hrun =>
      rw [hrun] at hr
      obtain ⟨c, ops, d, d', hpending, rfl⟩ := ih hr
      exact ⟨c, ops ++ [op], d, _, hpending.quiet hf hshow hr, c.performAll_append ops [op]⟩
    | byHand hop hd _ hshow hrun =>
      rw [hrun] at hr
      obtain ⟨c, ops, d, d', hpending, rfl⟩ := ih hr
      obtain rfl := Option.some.inj (hd.symm.trans hpending.shown)
      exact ⟨c, ops ++ [op], d, _, hpending.byHand hop hshow hr, c.performAll_append ops [op]⟩
    | @started now _ d hidle hd hgo hshow hrun hout =>
      rw [hrun] at hr
      obtain rfl := Option.some.inj hr
      -- The limits are checked with the settings before the operation, which it keeps.
      have hlimits : (e.perform (.toggle now)).WithinLimits ⟨d.iteration, now + e.pace.delay⟩ := by
        rw [withinLimits_iff hshow, limits_perform, pace_perform e (fun _ h => by cases h)]
        exact Scheduler.abort?_eq_none_iff.mp hgo
      exact ⟨_, [], d, d, .start he (.inl ⟨now, rfl, hout⟩) hlimits hshow, rfl⟩
    | @stepped now _ d r₀ _ hd _ _ hgo hshow hrun hout =>
      rw [hrun] at hr
      obtain rfl := Option.some.inj hr
      have hlimits : (e.perform (.tick now)).WithinLimits
          ⟨r₀.startIteration, now + e.pace.delay⟩ := by
        rw [withinLimits_iff hshow, limits_perform, pace_perform e (fun _ h => by cases h)]
        exact Scheduler.abort?_eq_none_iff.mp hgo
      exact ⟨_, [], d.grow, d.grow, .start he (.inr ⟨now, rfl, hout⟩) hlimits hshow, rfl⟩
    -- In every other case there is no run afterwards.
    | replaced _ _ hrun | rewound _ _ hrun | calledOff _ hrun _ | finished _ _ _ _ _ _ hrun _
    | refused _ _ _ _ _ hrun _ | dropped _ _ hrun _ =>
      rw [hrun] at hr
      cases hr

/-- **The limits at an automatic step.** A step that a run takes was armed within the limits of the
run.  When it is taken the limits hold exactly if they still do with the steps by hand since then
counted in, under the pace of that moment; without such a step and without a smaller budget they
do. -/
theorem withinLimits_at_step_iff {e : Explorer α} (he : Reachable e) {now : Moment}
    (hstep : e.grows (.tick now) = true) :
    ∃ r c ops d, e.scheduler.run = some r ∧ Awaits c r ops ∧ c.performAll ops = e ∧
      c.derivation = some d ∧
      (e.WithinLimits r ↔
        d.iteration + countAlong handStep c ops - r.startIteration < e.pace.maxSteps ∧
          Word.byteLength (d.grammar.rules.derive d.sentence (countAlong handStep c ops)) ≤
            e.limits.animation) ∧
      (countAlong handStep c ops = 0 → c.pace.maxSteps ≤ e.pace.maxSteps →
        e.WithinLimits r) := by
  obtain ⟨r, _, hr, _, _, _⟩ := tick_grows_iff.mp hstep
  obtain ⟨c, ops, d, d', ⟨hawait, hd, hd', hgrown⟩, hpath⟩ := pending_of_reachable he hr
  rw [hpath] at hd'
  have hiff : e.WithinLimits r ↔
      d.iteration + countAlong handStep c ops - r.startIteration < e.pace.maxSteps ∧
        Word.byteLength (d.grammar.rules.derive d.sentence (countAlong handStep c ops)) ≤
          e.limits.animation := by
    rw [withinLimits_iff hd', Derivation.size, hgrown.iteration, hgrown.sentence]
  refine ⟨r, c, ops, d, hr, hawait, hpath, hd, hiff, ?_⟩
  intro hnone hpace
  -- No step by hand: the word is still the one that was on show at the arming.
  obtain ⟨hleft, hsize⟩ := (withinLimits_iff hd).mp hawait.limits
  rw [hiff, hnone]
  refine ⟨Nat.lt_of_lt_of_le hleft hpace, ?_⟩
  rw [← hpath, limits_performAll]
  exact hsize

/-- A run that waits for its first step while one step is made by hand. -/
theorem withinLimits_at_first_step :
    let e := (ofSettings (Settings.default : Settings Float) 100 100).performAll
      [.load "koch", .toggle 0, .grow]
    Reachable e ∧ e.grows (.tick 500) = true ∧
      ∃ r c ops d, e.scheduler.run = some r ∧ Awaits c r ops ∧ c.performAll ops = e ∧
        c.derivation = some d ∧
        (e.WithinLimits r ↔
          d.iteration + countAlong handStep c ops - r.startIteration < e.pace.maxSteps ∧
            Word.byteLength (d.grammar.rules.derive d.sentence (countAlong handStep c ops)) ≤
              e.limits.animation) ∧
        (countAlong handStep c ops = 0 → c.pace.maxSteps ≤ e.pace.maxSteps →
          e.WithinLimits r) := by
  intro e
  have he : Reachable e := (Reachable.start _ _ _).performAll _
  -- The step by hand comes between the start and the first tick.
  have hstep : e.grows (.tick 500) = true := by decide +kernel
  exact ⟨he, hstep, withinLimits_at_step_iff he hstep⟩

/-- **The limits can be passed.** A run of one step is started, one step is made by hand, and the
run takes its step all the same. -/
theorem step_beyond_budget :
    let e := (ofSettings (Settings.default : Settings Float) 100 100).performAll
      [.load "koch", .setPace ⟨10, 1⟩, .toggle 0, .grow]
    Reachable e ∧ e.scheduler.run = some ⟨0, 10⟩ ∧ e.grows (.tick 10) = true ∧
      ¬ e.WithinLimits ⟨0, 10⟩ := by
  refine ⟨(Reachable.start _ _ _).performAll _, ?_, ?_, ?_⟩
  all_goals decide +kernel

end Explorer

end TurtleCurves
