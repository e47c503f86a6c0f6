import TurtleCurves.Proofs.Explorer.Growth
import TurtleCurves.Scalar.Binary64

namespace TurtleCurves

/-!
# The budget of a run

A run takes at most as many steps as its pace allows, whatever else is done meanwhile.

* `Explorer.InRun start budget auto hand e` — the invariant: `e` is in a run from the iteration
  `start`, in which `auto` steps were automatic and `hand` steps by hand;
* `Explorer.InRun.perform` — an operation keeps the invariant, or ends the run in one of three
  ways;
* `Explorer.InRun.performAll` — the invariant along a history;
* `Explorer.InRun.spent` — a run that nothing else ends spends its budget exactly;
* `Explorer.runs_keep_budget` — the budget, the start, the end, and the rest after the end.
-/

variable {α : Type}

/-- The operation ends a run when it succeeds: it calls the run off, or replaces the word. -/
def Operation.cancels : Operation α → Bool
  | .load _ | .customize _ | .rewind | .toggle _ => true
  | _ => false

/-- None of the operations changes the budget. -/
def KeepsBudget (budget : Nat) (ops : List (Operation α)) : Prop :=
  ∀ pace, Operation.setPace pace ∈ ops → pace.maxSteps = budget

theorem KeepsBudget.append {budget : Nat} {ops more : List (Operation α)} :
    KeepsBudget budget (ops ++ more) ↔ KeepsBudget budget ops ∧ KeepsBudget budget more := by
  constructor
  · intro h
    exact ⟨fun pace hmem => h pace (List.mem_append_left more hmem),
      fun pace hmem => h pace (List.mem_append_right ops hmem)⟩
  · rintro ⟨h, hmore⟩ pace hmem
    rcases List.mem_append.mp hmem with hmem | hmem
    · exact h pace hmem
    · exact hmore pace hmem

namespace Explorer

/-- The operation starts a run. -/
def Starts (e : Explorer α) (op : Operation α) : Prop :=
  ∃ now, op = .toggle now ∧ (e.toggle now).1 = .ok none

theorem isAnimating_eq_false_iff {e : Explorer α} :
    e.isAnimating = false ↔ e.scheduler.run = none := by
  rw [isAnimating, Scheduler.isActive, Option.isSome_eq_false_iff, Option.isNone_iff_eq_none]

theorem not_isAnimating_of_idle {e : Explorer α} (h : e.scheduler = .idle) :
    e.isAnimating = false := by
  rw [isAnimating_eq_false_iff, h]
  rfl

/-- `e` is in a run that started at the iteration `start` with `budget` steps to take.  Since then
`auto` steps were automatic and `hand` steps by hand. -/
structure InRun (start budget auto hand : Nat) (e : Explorer α) : Prop where
  active : ∃ due, e.scheduler.run = some ⟨start, due⟩
  shown : ∃ d, e.derivation = some d ∧ d.iteration = start + auto + hand
  left : auto < budget

/-- A step by hand in a run. -/
theorem InRun.byHand {start budget auto hand : Nat} {e e' : Explorer α} {d : Derivation α}
    (h : InRun start budget auto hand e) (hd : e.derivation = some d)
    (hshow : e'.derivation = some d.grow) (hrun : e'.scheduler = e.scheduler) :
    InRun start budget auto (hand + 1) e' := by
  obtain ⟨d', hd', hiter⟩ := h.shown
  obtain rfl := Option.some.inj (hd.symm.trans hd')
  refine ⟨by rw [hrun]; exact h.active, ⟨_, hshow, ?_⟩, h.left⟩
  show d.iteration + 1 = start + auto + (hand + 1)
  omega

/-- An automatic step after which the run goes on: its steps by now, this one counted in, are below
the budget. -/
theorem InRun.stepped {start budget auto hand : Nat} {e e' : Explorer α} {d : Derivation α}
    {due : Moment} (h : InRun start budget auto hand e) (hpace : e.pace.maxSteps = budget)
    (hd : e.derivation = some d)
    (hgo : Scheduler.abort? d.grow e.pace e.limits.animation start = none)
    (hshow : e'.derivation = some d.grow) (hrun : e'.scheduler = ⟨some ⟨start, due⟩⟩) :
    InRun start budget (auto + 1) hand e' := by
  obtain ⟨d', hd', hiter⟩ := h.shown
  obtain rfl := Option.some.inj (hd.symm.trans hd')
  have hleft := (Scheduler.abort?_eq_none_iff.mp hgo).1
  have hgrown : d.grow.iteration = d.iteration + 1 := rfl
  rw [hgrown, hpace] at hleft
  exact ⟨⟨due, congrArg Scheduler.run hrun⟩, ⟨d.grow, hshow, by omega⟩, by omega⟩

/-- A run that has just been started. -/
theorem InRun.of_toggle {e : Explorer α} {now : Moment} (h : (e.toggle now).1 = .ok none) :
    InRun e.steps e.pace.maxSteps 0 0 (e.toggle now).2 := by
  rcases e.toggle_cases now with hout | ⟨reason, hout⟩ | ⟨d, _, hd, hgo, hout⟩
  · rw [hout] at h
    cases h
  · rw [hout] at h
    cases h
  · have hleft := (Scheduler.abort?_eq_none_iff.mp hgo).1
    rw [hout, steps_of_derivation hd]
    exact ⟨⟨_, rfl⟩, ⟨d, hd, rfl⟩, by omega⟩

/-- A run that is over as soon as it is started has no steps to take, or too long a word; nothing
else changes. -/
theorem toggle_over {e : Explorer α} (hidle : e.isAnimating = false) {now : Moment}
    {reason : StopReason} (h : (e.toggle now).1 = .ok (some reason)) :
    (e.toggle now).2 = { e with scheduler := .idle } ∧
      (reason = .budgetExhausted ∧ e.pace.maxSteps = 0 ∨ reason = .tooLong) := by
  have hrun := isAnimating_eq_false_iff.mp hidle
  cases hd : e.derivation with
  | none =>
    rw [toggle_of_none hd now] at h
    cases h
  | some d =>
    -- Nothing runs, so the toggle starts a run and asks at once whether it is over.
    simp only [toggle, hd, Scheduler.toggle, Scheduler.isActive, hrun, Option.isSome_none,
      Bool.false_eq_true, if_false] at h ⊢
    cases hgo : Scheduler.abort? d e.pace e.limits.animation d.iteration with
    | none =>
      rw [hgo] at h
      cases h
    | some r =>
      rw [hgo] at h
      obtain rfl : r = reason := by injection h with h; injection h
      refine ⟨rfl, ?_⟩
      rcases Scheduler.abort?_eq_some hgo with rfl | rfl
      -- No step has been taken yet: a spent budget is a budget of none.
      · have hspent := Scheduler.abort?_eq_budgetExhausted_iff.mp hgo
        exact .inl ⟨rfl, by omega⟩
      · exact .inr rfl

variable [Scalar α]

/-! ### Between runs -/

/-- Only what starts a run makes one. -/
theorem not_isAnimating_perform {e : Explorer α} (h : e.isAnimating = false) {op : Operation α}
    (hop : ¬ e.Starts op) : (e.perform op).isAnimating = false := by
  have hrun := isAnimating_eq_false_iff.mp h
  -- Only `started` sets a run going; the effects of a tick need one that is under way.
  cases e.effect_perform op with
  | quiet _ _ hkept => rw [isAnimating_eq_false_iff, hkept, hrun]
  | byHand _ _ _ _ hkept => rw [isAnimating_eq_false_iff, hkept, hrun]
  | replaced _ _ hidle => exact not_isAnimating_of_idle hidle
  | rewound _ _ hidle => exact not_isAnimating_of_idle hidle
  | calledOff _ hidle _ => exact not_isAnimating_of_idle hidle
  | @started now _ _ _ _ _ _ _ hout => exact absurd ⟨now, rfl, hout⟩ hop
  | stepped hr => rw [hrun] at hr; cases hr
  | finished hr => rw [hrun] at hr; cases hr
  | refused hr => rw [hrun] at hr; cases hr
  | dropped _ _ hidle _ => exact not_isAnimating_of_idle hidle

/-- **Rest.** After a run no tick does anything, until another run is started. -/
theorem tick_performAll_of_not_starts {e : Explorer α} (h : e.isAnimating = false)
    {ops : List (Operation α)} (hops : Along (fun e op => ¬ e.Starts op) e ops) (now : Moment) :
    (e.performAll ops).tick now = (.idle, e.performAll ops) := by
  induction ops generalizing e with
  | nil => exact tick_of_run_eq_none (isAnimating_eq_false_iff.mp h) now
  | cons op ops ih => exact ih (not_isAnimating_perform h hops.1) hops.2

/-! ### During a run -/

/-- A run has a word to grow, and the word is not younger than the run. -/
theorem start_le_iteration {e : Explorer α} (he : Reachable e) {r : Run}
    (hr : e.scheduler.run = some r) :
    ∃ d, e.derivation = some d ∧ r.startIteration ≤ d.iteration := by
  induction he generalizing r with
  | start s width height => cases hr
  | @step e he op ih =>
    cases e.effect_perform op with
    | @quiet _ _ f hf hshow hrun =>
      rw [hrun] at hr
      obtain ⟨d, hd, hle⟩ := ih hr
      refine ⟨f d, by rw [hshow, hd]; rfl, ?_⟩
      rw [hf.iteration]
      exact hle
    | byHand _ hd _ hshow hrun =>
      rw [hrun] at hr
      obtain ⟨d, hd', hle⟩ := ih hr
      obtain rfl := Option.some.inj (hd.symm.trans hd')
      exact ⟨_, hshow, Nat.le_succ_of_le hle⟩
    | started _ _ _ hshow hrun _ =>
      rw [hrun] at hr
      obtain rfl := Option.some.inj hr
      exact ⟨_, hshow, Nat.le_refl _⟩
    | stepped hrun₀ hd _ _ _ hshow hrun _ =>
      rw [hrun] at hr
      obtain rfl := Option.some.inj hr
      obtain ⟨d, hd', hle⟩ := ih hrun₀
      obtain rfl := Option.some.inj (hd.symm.trans hd')
      exact ⟨_, hshow, Nat.le_succ_of_le hle⟩
    -- In every other case there is no run afterwards.
    | replaced _ _ hrun | rewound _ _ hrun | calledOff _ hrun _ | finished _ _ _ _ _ _ hrun _
    | refused _ _ _ _ _ hrun _ | dropped _ _ hrun _ =>
      rw [hrun] at hr
      cases hr

/-- How the operation `op` ends a run in which `auto` steps were automatic and `hand` steps by
hand. -/
inductive EndsRun (start budget auto hand : Nat) (e : Explorer α) (op : Operation α) : Prop where
  /-- It calls the run off, or replaces the word. -/
  | cancelled (h : op.cancels = true)
  /-- It is a tick that finds a word too long to grow, or makes one too long to go on with. -/
  | overgrown (now : Moment) (hop : op = .tick now)
      (hout : (e.tick now).1 = .finished .tooLong ∨ (e.tick now).1 = .finished .refused)
  /-- It is a tick that takes the last step of the budget. -/
  | spent (now : Moment) (hop : op = .tick now) (hout : (e.tick now).1 = .finished .budgetExhausted)
      (hspent : budget ≤ auto + hand + 1)
      (hsteps : (e.perform op).steps = start + auto + hand + 1)

namespace InRun

variable {start budget auto hand : Nat} {e : Explorer α}

/-- An automatic step after which the run is over. -/
theorem finished {now : Moment} {d : Derivation α} {reason : StopReason}
    (h : InRun start budget auto hand e) (hpace : e.pace.maxSteps = budget)
    (hd : e.derivation = some d)
    (hstop : Scheduler.abort? d.grow e.pace e.limits.animation start = some reason)
    (hshow : (e.perform (.tick now)).derivation = some d.grow)
    (hout : (e.tick now).1 = .finished reason) : EndsRun start budget auto hand e (.tick now) := by
  obtain ⟨d', hd', hiter⟩ := h.shown
  obtain rfl := Option.some.inj (hd.symm.trans hd')
  have hgrown : d.grow.iteration = d.iteration + 1 := rfl
  -- The end is asked after the step, so the word counted is the grown one.
  rcases Scheduler.abort?_eq_some hstop with rfl | rfl
  · have hspent := Scheduler.abort?_eq_budgetExhausted_iff.mp hstop
    rw [hgrown, hpace] at hspent
    refine .spent now rfl hout (by omega) ?_
    rw [steps_of_derivation hshow, hgrown, hiter]
  · exact .overgrown now rfl (.inl hout)

/-- **One operation.** It keeps the invariant, with its own step counted in, or ends the run. -/
theorem perform (h : InRun start budget auto hand e) (hpace : e.pace.maxSteps = budget)
    (op : Operation α) :
    InRun start budget (auto + (e.autoStep op).toNat) (hand + (e.handStep op).toNat)
        (e.perform op) ∨
      (e.perform op).isAnimating = false ∧ EndsRun start budget auto hand e op := by
  obtain ⟨due, hactive⟩ := h.active
  obtain ⟨d, hd, hiter⟩ := h.shown
  -- One case for each effect: a run under way either goes on, with the step it took counted, or it
  -- is over and the effect says why.
  cases e.effect_perform op with
  | @quiet _ _ f hf hshow hrun =>
    have hstill := grows_of_measures hf hshow
    have hsame := hf.iteration d
    rw [autoStep, handStep, hstill, Bool.and_false, Bool.and_false]
    exact .inl ⟨⟨due, hrun ▸ hactive⟩, ⟨f d, by rw [hshow, hd]; rfl, hsame.trans hiter⟩, h.left⟩
  | byHand hop hd' _ hshow hrun =>
    have hgrows := grows_iff.mpr ⟨_, hd', hshow⟩
    have hnotick : op.isTick = false := by rcases hop with rfl | rfl <;> rfl
    rw [autoStep, handStep, hnotick, hgrows]
    exact .inl (h.byHand hd' hshow hrun)
  | replaced hop _ hidle =>
    refine .inr ⟨not_isAnimating_of_idle hidle, .cancelled ?_⟩
    rcases hop with ⟨key, rfl⟩ | ⟨editor, rfl⟩ <;> rfl
  | rewound _ _ hidle => exact .inr ⟨not_isAnimating_of_idle hidle, .cancelled rfl⟩
  | calledOff _ hidle _ => exact .inr ⟨not_isAnimating_of_idle hidle, .cancelled rfl⟩
  | started hnone => rw [hactive] at hnone; cases hnone
  | stepped hr hd' _ _ hgo hshow hrun _ =>
    obtain rfl := Option.some.inj (hactive.symm.trans hr)
    rw [autoStep, handStep, grows_iff.mpr ⟨_, hd', hshow⟩]
    exact .inl (h.stepped hpace hd' hgo hshow hrun)
  | finished hr hd' _ _ hstop hshow hidle hout =>
    obtain rfl := Option.some.inj (hactive.symm.trans hr)
    exact .inr ⟨not_isAnimating_of_idle hidle, h.finished hpace hd' hstop hshow hout⟩
  | @refused now _ _ _ _ _ _ _ _ hidle hout =>
    exact .inr ⟨not_isAnimating_of_idle hidle, .overgrown now rfl (.inr hout)⟩
  | dropped hnone => rw [hd] at hnone; cases hnone

/-- An operation that does not change the budget. -/
theorem maxSteps_perform (hpace : e.pace.maxSteps = budget) {op : Operation α}
    (h : KeepsBudget budget [op]) : (e.perform op).pace.maxSteps = budget := by
  rcases e.pace_perform_or op with hkept | hset
  · rw [hkept, hpace]
  · refine h _ ?_
    rw [← hset]
    exact List.mem_singleton_self op

/-- **A history.** The automatic steps stay within the budget, and as long as the run lasts the
invariant holds, with the steps of the history counted in. -/
theorem performAll (h : InRun start budget auto hand e) (hpace : e.pace.maxSteps = budget)
    {ops : List (Operation α)} (hkeeps : KeepsBudget budget ops)
    (hactive : Along (fun e _ => e.isAnimating = true) e ops) :
    auto + countAlong autoStep e ops ≤ budget ∧
      ((e.performAll ops).isAnimating = true →
        InRun start budget (auto + countAlong autoStep e ops) (hand + countAlong handStep e ops)
            (e.performAll ops) ∧
          (e.performAll ops).pace.maxSteps = budget) := by
  induction ops generalizing e auto hand with
  | nil => exact ⟨Nat.le_of_lt h.left, fun _ => ⟨h, hpace⟩⟩
  | cons op ops ih =>
    obtain ⟨hop, hops⟩ : KeepsBudget budget [op] ∧ KeepsBudget budget ops :=
      KeepsBudget.append.mp hkeeps
    rw [countAlong, countAlong, performAll_cons, ← Nat.add_assoc, ← Nat.add_assoc]
    rcases h.perform hpace op with hstep | ⟨hover, _⟩
    · exact ih hstep (maxSteps_perform hpace hop) hops hactive.2
    · -- The run is over, and the history with it.
      cases ops with
      | nil =>
        have hone := (e.autoStep op).toNat_le
        have hleft := h.left
        refine ⟨?_, fun hstill => ?_⟩
        · show auto + (e.autoStep op).toNat + 0 ≤ budget
          omega
        · rw [performAll_nil, hover] at hstill
          cases hstill
      | cons next rest =>
        have hstill : (e.perform op).isAnimating = true := hactive.2.1
        rw [hover] at hstill
        cases hstill

/-- **The end of a run** in which no step was made by hand, if the operation that ends it neither
calls the run off nor finds a word too long: it is a tick, and its step spends the budget. -/
theorem spent (h : InRun start budget auto 0 e) (hpace : e.pace.maxSteps = budget)
    {op : Operation α} (hover : (e.perform op).isAnimating = false) (hcancel : op.cancels = false)
    (hceiling : ∀ t, op = .tick t →
      (e.tick t).1 ≠ .finished .tooLong ∧ (e.tick t).1 ≠ .finished .refused) :
    ∃ t, op = .tick t ∧ (e.tick t).1 = .finished .budgetExhausted ∧
      (e.perform op).steps = start + budget := by
  rcases h.perform hpace op with hstep | ⟨_, hends⟩
  · obtain ⟨due, hstill⟩ := hstep.active
    rw [isAnimating_eq_false_iff] at hover
    cases hover.symm.trans hstill
  cases hends with
  | cancelled h => rw [hcancel] at h; cases h
  | overgrown t hop hout =>
    obtain ⟨hlong, hrefused⟩ := hceiling t hop
    rcases hout with hout | hout
    · exact absurd hout hlong
    · exact absurd hout hrefused
  | spent t hop hout hspent hsteps =>
    have hleft := h.left
    refine ⟨t, hop, hout, ?_⟩
    rw [hsteps]
    omega

end InRun

/-! ### Whole runs -/

/-- **Runs keep their budget.** In every reachable state a run has a word to grow that is not
younger than the run.  Without a run no tick does anything until a run is started.  A run that is
over as soon as it is started has a word that is too long, or its budget of no steps is spent
exactly.  And when a run is started and its budget is left alone, then as long as it lasts it takes
at most that many automatic steps; if no step is made by hand, and it is neither called off nor
ended by a word that is too long, it ends with its budget spent exactly. -/
theorem runs_keep_budget {e : Explorer α} (he : Reachable e) :
    (∀ r, e.scheduler.run = some r →
      ∃ d, e.derivation = some d ∧ r.startIteration ≤ d.iteration) ∧
    (e.isAnimating = false → ∀ ops, Along (fun e op => ¬ e.Starts op) e ops → ∀ now,
      (e.performAll ops).tick now = (.idle, e.performAll ops)) ∧
    (e.isAnimating = false → ∀ now reason, (e.toggle now).1 = .ok (some reason) →
      (e.toggle now).2.isAnimating = false ∧ (e.toggle now).2.derivation = e.derivation ∧
        (reason ≠ .tooLong →
          reason = .budgetExhausted ∧ (e.toggle now).2.steps = e.steps + e.pace.maxSteps)) ∧
    ∀ now, (e.toggle now).1 = .ok none →
      (∀ ops, KeepsBudget e.pace.maxSteps ops →
        Along (fun e _ => e.isAnimating = true) (e.toggle now).2 ops →
        countAlong autoStep (e.toggle now).2 ops ≤ e.pace.maxSteps) ∧
      ∀ ops op, KeepsBudget e.pace.maxSteps (ops ++ [op]) →
        Along (fun e _ => e.isAnimating = true) (e.toggle now).2 (ops ++ [op]) →
        ((e.toggle now).2.performAll (ops ++ [op])).isAnimating = false →
        countAlong handStep (e.toggle now).2 (ops ++ [op]) = 0 → op.cancels = false →
        (∀ t, op = .tick t →
          (((e.toggle now).2.performAll ops).tick t).1 ≠ .finished .tooLong ∧
            (((e.toggle now).2.performAll ops).tick t).1 ≠ .finished .refused) →
        ∃ t, op = .tick t ∧
          (((e.toggle now).2.performAll ops).tick t).1 = .finished .budgetExhausted ∧
          ((e.toggle now).2.performAll (ops ++ [op])).steps = e.steps + e.pace.maxSteps := by
  refine ⟨fun r hr => start_le_iteration he hr,
    fun h ops hops now => tick_performAll_of_not_starts h hops now, fun hidle now reason hout => ?_,
    fun now hstart => ?_⟩
  · obtain ⟨hover, hreason⟩ := toggle_over hidle hout
    rw [hover]
    refine ⟨rfl, rfl, fun hshort => ?_⟩
    rcases hreason with ⟨rfl, hnone⟩ | rfl
    · rw [hnone]
      exact ⟨rfl, rfl⟩
    · exact absurd rfl hshort
  have hrun := InRun.of_toggle hstart
  have hpace : (e.toggle now).2.pace.maxSteps = e.pace.maxSteps := by
    show (e.perform (.toggle now)).pace.maxSteps = e.pace.maxSteps
    rw [pace_perform e fun _ h => by cases h]
  refine ⟨fun ops hkeeps hactive => ?_, ?_⟩
  · have hbound := (hrun.performAll hpace hkeeps hactive).1
    omega
  intro ops op hkeeps hactive hover hhand hcancel hceiling
  obtain ⟨hkeeps, _⟩ := KeepsBudget.append.mp hkeeps
  obtain ⟨hactive, hlast, _⟩ := along_append.mp hactive
  rw [countAlong_concat] at hhand
  have hnone : 0 + countAlong handStep (e.toggle now).2 ops = 0 := by omega
  -- The invariant right before the last operation: no step was made by hand.
  obtain ⟨hbefore, hpace'⟩ := (hrun.performAll hpace hkeeps hactive).2 hlast
  rw [hnone] at hbefore
  rw [performAll_append] at hover ⊢
  exact hbefore.spent hpace' hover hcancel hceiling

/-- A run of two steps from the first iteration on; between them a preset that does not exist is
asked for, and a tick comes too early. -/
theorem runs_keep_budget_of_two :
    let e := (ofSettings (Settings.default : Settings Float) 100 100).performAll
      [.load "koch", .grow, .setPace ⟨10, 2⟩]
    let ops : List (Operation Float) := [.tick 10, .load "none", .tick 15]
    Reachable e ∧ (e.toggle 0).1 = .ok none ∧
      countAlong autoStep (e.toggle 0).2 (ops ++ [.tick 20]) ≤ e.pace.maxSteps ∧
      ∃ t, (.tick 20 : Operation Float) = .tick t ∧
        (((e.toggle 0).2.performAll ops).tick t).1 = .finished .budgetExhausted ∧
        ((e.toggle 0).2.performAll (ops ++ [.tick 20])).steps = e.steps + e.pace.maxSteps := by
  intro e ops
  have he : Reachable e := (Reachable.start _ _ _).performAll _
  have hstart : (e.toggle 0).1 = .ok none := by rfl
  have hkeeps : KeepsBudget e.pace.maxSteps (ops ++ [.tick 20]) := fun pace hmem => by
    simp [ops] at hmem
  have hactive : Along (fun e _ => e.isAnimating = true) (e.toggle 0).2 (ops ++ [.tick 20]) := by
    decide +kernel
  -- The refused load between the two ticks neither ends the run nor counts against it.
  obtain ⟨hbudget, hspent⟩ := (runs_keep_budget he).2.2.2 0 hstart
  refine ⟨he, hstart, hbudget _ hkeeps hactive, ?_⟩
  refine hspent ops (.tick 20) hkeeps hactive (by decide +kernel) (by decide +kernel) rfl ?_
  intro t ht
  obtain rfl : 20 = t := by injection ht
  exact ⟨by decide +kernel, by decide +kernel⟩

end Explorer

end TurtleCurves
