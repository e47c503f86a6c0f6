import TurtleCurves.Explorer.Operation

namespace TurtleCurves

/-!
# What an operation can do

Every operation on an explorer does one of a few things to the word on show and to the run.

* `Derivation.Measures f` — `f` only takes measurements: it changes neither the word nor what is
  read off it;
* `Explorer.Effect` — the list of what an operation can do, each with the condition under which
  it does it;
* `Explorer.effect_perform` — every operation does one of them.

Invariants of runs and of words are proved from the list, and not from the operations.
-/

variable {α : Type}

/-! ### Derivations without their notes -/

namespace Derivation

/-- The derivation without what was measured of it. -/
def unmeasured (d : Derivation α) : Derivation α :=
  { d with segmentNote := none, boundsNote := none }

/-- `f` only takes measurements. -/
structure Measures [Scalar α] (f : Derivation α → Derivation α) : Prop where
  unmeasured (d : Derivation α) : (f d).unmeasured = d.unmeasured
  segmentCount (d : Derivation α) : (f d).segmentCount = d.segmentCount
  bounds (d : Derivation α) : (f d).bounds = d.bounds

namespace Measures

variable [Scalar α]

/-- A measured derivation is one of the same grammar. -/
theorem grammar {f : Derivation α → Derivation α} (hf : Measures f) (d : Derivation α) :
    (f d).grammar = d.grammar := by
  have hsame := congrArg Derivation.grammar (hf.unmeasured d)
  exact hsame

/-- Its letters are the same. -/
theorem alphabet {f : Derivation α → Derivation α} (hf : Measures f) (d : Derivation α) :
    (f d).alphabet = d.alphabet := by
  have hsame := congrArg Derivation.alphabet (hf.unmeasured d)
  exact hsame

/-- Its word is the same. -/
theorem sentence {f : Derivation α → Derivation α} (hf : Measures f) (d : Derivation α) :
    (f d).sentence = d.sentence := by
  have hsame := congrArg Derivation.sentence (hf.unmeasured d)
  exact hsame

/-- So is its number of steps. -/
theorem iteration {f : Derivation α → Derivation α} (hf : Measures f) (d : Derivation α) :
    (f d).iteration = d.iteration := by
  have hsame := congrArg Derivation.iteration (hf.unmeasured d)
  exact hsame

/-- Doing nothing is a measurement. -/
theorem id : Measures (α := α) fun d => d := ⟨fun _ => rfl, fun _ => rfl, fun _ => rfl⟩

/-- Counting the strokes and finding the bounds is one. -/
theorem survey : Measures (α := α) fun d => d.noteSegments.noteBounds :=
  ⟨fun _ => rfl, fun _ => rfl, fun _ => rfl⟩

/-- So is what a frame needs to know before it draws. -/
theorem frame (mode : ColorMode) : Measures (α := α) fun d => Frame.measured d mode := by
  refine ⟨fun d => ?_, fun d => ?_, fun d => ?_⟩ <;> unfold Frame.measured <;> split <;> split <;>
    rfl

end Measures

end Derivation

namespace Explorer

/-! ### Single operations -/

/-- The explorer after the pointer is let go. -/
def letGo (e : Explorer α) : Explorer α := { e with viewport := { e.viewport with held := none } }

/-- Nothing is on show: the step by hand fails. -/
theorem grow_of_none {e : Explorer α} (hd : e.derivation = none) :
    e.grow = (.error .noSystem, e) := by
  simp only [grow, hd]

/-- The word is within the ceiling: it takes a step. -/
theorem grow_of_le {e : Explorer α} {d : Derivation α} (hd : e.derivation = some d)
    (hsize : d.size ≤ e.limits.manual) :
    e.grow = (.ok (), { e with derivation := some d.grow }) := by
  simp only [grow, hd, Derivation.growWithin_of_le hsize]

/-- The word is longer than the ceiling: the step is refused, with its length and the ceiling. -/
theorem grow_of_lt {e : Explorer α} {d : Derivation α} (hd : e.derivation = some d)
    (hsize : e.limits.manual < d.size) :
    e.grow = (.error (.overgrown ⟨d.size, e.limits.manual⟩), e) := by
  simp only [grow, hd, Derivation.growWithin_of_lt hsize]

/-- What one step by hand leads to: nothing when nothing is on show or the word is too long, and
one step of growth otherwise. -/
theorem grow_cases (e : Explorer α) :
    e.grow.2 = e ∨
      ∃ d, e.derivation = some d ∧ d.size ≤ e.limits.manual ∧
        e.grow = (.ok (), { e with derivation := some d.grow }) := by
  cases hd : e.derivation with
  | none => exact .inl (by rw [grow_of_none hd])
  | some d =>
    by_cases hsize : d.size ≤ e.limits.manual
    · exact .inr ⟨d, rfl, hsize, grow_of_le hd hsize⟩
    · exact .inl (by rw [grow_of_lt hd (Nat.lt_of_not_le hsize)])

/-- A pointer that is let go asks for growth when it was a tap on something. -/
theorem release_of_tap {e : Explorer α} (htap : e.viewport.release = .tap)
    {d : Derivation α} (hd : e.derivation = some d) :
    e.release = (e.letGo.grow.1.map fun _ => .tap, e.letGo.grow.2) := by
  have hpan : e.viewport.panEnd = (.tap, { e.viewport with held := none }) := by
    rw [Viewport.panEnd, htap]
  have hsome : e.letGo.derivation.isSome = true := by
    show e.derivation.isSome = true
    rw [hd]
    rfl
  have hletGo : { e with viewport := { e.viewport with held := none } } = e.letGo := rfl
  rw [release, hpan]
  dsimp only
  -- The growth is asked of the explorer that has let go, so a refusal leaves that one.
  rw [if_pos ⟨rfl, hsome⟩, hletGo]
  rcases e.letGo.grow with ⟨_ | _, _⟩ <;> rfl

/-- Any other way of letting go changes the view only. -/
theorem release_of_other {e : Explorer α}
    (hother : ¬ (e.viewport.release = .tap ∧ e.derivation.isSome = true)) :
    e.release = (.ok e.viewport.release, e.letGo) := by
  unfold release
  exact if_neg hother

/-- What letting the pointer go leads to: one step by hand when it was a tap, and nothing else
otherwise. -/
theorem release_cases (e : Explorer α) :
    e.release.2 = e.letGo ∨ e.release.2 = e.letGo.grow.2 := by
  by_cases htap : e.viewport.release = .tap ∧ e.derivation.isSome = true
  · obtain ⟨d, hd⟩ := Option.isSome_iff_exists.mp htap.2
    exact .inr (congrArg Prod.snd (release_of_tap htap.1 hd))
  · exact .inl (congrArg Prod.snd (release_of_other htap))

/-- Nothing is on show: no run can start. -/
theorem toggle_of_none {e : Explorer α} (hd : e.derivation = none) (now : Moment) :
    e.toggle now = (.error .noSystem, e) := by
  simp only [toggle, hd]

/-- What starting or calling off a run leads to: nothing when nothing is on show, no run with a
reason, or a run. -/
theorem toggle_cases (e : Explorer α) (now : Moment) :
    e.toggle now = (.error .noSystem, e) ∨
      (∃ reason, e.toggle now = (.ok (some reason), { e with scheduler := .idle })) ∨
      ∃ d, e.scheduler.run = none ∧ e.derivation = some d ∧
        Scheduler.abort? d e.pace e.limits.animation d.iteration = none ∧
        e.toggle now =
          (.ok none, { e with scheduler := ⟨some ⟨d.iteration, now + e.pace.delay⟩⟩ }) := by
  cases hd : e.derivation with
  | none => exact .inl (toggle_of_none hd now)
  | some d =>
    refine .inr ?_
    -- A run that is on is called off; otherwise the conditions for its end are looked at first.
    cases hr : e.scheduler.run with
    | some r =>
      refine .inl ⟨.cancelled, ?_⟩
      simp only [toggle, hd, Scheduler.toggle, Scheduler.isActive, hr, Option.isSome_some, if_true,
        Scheduler.stop]
    | none =>
      cases hgo : Scheduler.abort? d e.pace e.limits.animation d.iteration with
      | some reason =>
        refine .inl ⟨reason, ?_⟩
        simp only [toggle, hd, Scheduler.toggle, Scheduler.isActive, hr, hgo, Option.isSome_none,
          Bool.false_eq_true, if_false]
      | none =>
        refine .inr ⟨d, rfl, rfl, hgo, ?_⟩
        simp only [toggle, hd, Scheduler.toggle, Scheduler.isActive, hr, hgo, Option.isSome_none,
          Bool.false_eq_true, if_false]

/-- Nothing is on show: a tick drops the run. -/
theorem tick_of_none {e : Explorer α} (hd : e.derivation = none) (now : Moment) :
    e.tick now = (.idle, { e with scheduler := .idle }) := by
  simp only [tick, hd, Scheduler.stop]

/-- With a word on show a tick is what the scheduler makes of it. -/
theorem tick_of_some {e : Explorer α} {d : Derivation α} (hd : e.derivation = some d)
    (now : Moment) :
    e.tick now =
      ((e.scheduler.poll d e.pace e.limits.manual e.limits.animation now).1,
        { e with
          scheduler := (e.scheduler.poll d e.pace e.limits.manual e.limits.animation now).2.1
          derivation :=
            some (e.scheduler.poll d e.pace e.limits.manual e.limits.animation now).2.2 }) := by
  simp only [tick, hd]

/-- Without a run a tick does nothing. -/
theorem tick_of_run_eq_none {e : Explorer α} (hr : e.scheduler.run = none) (now : Moment) :
    e.tick now = (.idle, e) := by
  cases hd : e.derivation with
  | none =>
    have hidle : e.scheduler = .idle := by
      show e.scheduler = ⟨none⟩
      rw [← hr]
    rw [tick_of_none hd, ← hidle]
  | some d =>
    rw [tick_of_some hd]
    simp only [Scheduler.poll, hr]
    rw [← hd]

/-- A tick that comes too early does nothing. -/
theorem tick_of_early {e : Explorer α} {now : Moment} {r : Run} {d : Derivation α}
    (hr : e.scheduler.run = some r) (hd : e.derivation = some d) (hearly : now < r.due) :
    e.tick now = (.waiting, e) := by
  rw [tick_of_some hd]
  simp only [Scheduler.poll, hr, if_pos hearly]
  rw [← hd]

/-- A run whose step is due is refused the step when the word is too long. -/
theorem tick_of_lt {e : Explorer α} {now : Moment} {r : Run} {d : Derivation α}
    (hr : e.scheduler.run = some r) (hd : e.derivation = some d) (hdue : r.due ≤ now)
    (hsize : e.limits.manual < d.size) :
    e.tick now = (.finished .refused, { e with scheduler := .idle }) := by
  rw [tick_of_some hd]
  simp only [Scheduler.poll, hr, if_neg (Nat.not_lt_of_le hdue),
    Derivation.growWithin_of_lt hsize, Scheduler.stop]
  rw [← hd]

/-- Otherwise it takes the step, and the run is over or the next step is pending. -/
theorem tick_of_le {e : Explorer α} {now : Moment} {r : Run} {d : Derivation α}
    (hr : e.scheduler.run = some r) (hd : e.derivation = some d) (hdue : r.due ≤ now)
    (hsize : d.size ≤ e.limits.manual) :
    (∃ reason, Scheduler.abort? d.grow e.pace e.limits.animation r.startIteration = some reason ∧
      e.tick now = (.finished reason, { e with scheduler := .idle, derivation := some d.grow })) ∨
    Scheduler.abort? d.grow e.pace e.limits.animation r.startIteration = none ∧
      e.tick now =
        (.stepped,
          { e with
            scheduler := ⟨some ⟨r.startIteration, now + e.pace.delay⟩⟩
            derivation := some d.grow }) := by
  have hnow : ¬ now < r.due := Nat.not_lt_of_le hdue
  rw [tick_of_some hd]
  -- The step is taken either way; whether the run is over is asked of the grown word.
  cases hstop : Scheduler.abort? d.grow e.pace e.limits.animation r.startIteration with
  | some reason =>
    refine .inl ⟨reason, rfl, ?_⟩
    simp only [Scheduler.poll, hr, if_neg hnow, Derivation.growWithin_of_le hsize, hstop]
  | none =>
    refine .inr ⟨rfl, ?_⟩
    simp only [Scheduler.poll, hr, if_neg hnow, Derivation.growWithin_of_le hsize, hstop]

/-- Nothing is on show: nothing can be rewound. -/
theorem rewind_of_none {e : Explorer α} (hd : e.derivation = none) :
    e.rewind = (.error .noSystem, e) := by
  simp only [rewind, hd]

/-- What rewinding leads to: nothing when nothing is on show, and the seed without a run
otherwise. -/
theorem rewind_cases (e : Explorer α) :
    e.rewind.2 = e ∨
      ∃ d, e.derivation = some d ∧
        e.rewind.2 = { e with scheduler := .idle, derivation := some d.rewind } := by
  cases hd : e.derivation with
  | none => exact .inl (by rw [rewind_of_none hd])
  | some d => exact .inr ⟨d, rfl, by simp only [rewind, hd, Scheduler.stop]⟩

/-- Taking colours from a link touches palette stops only, and not their number. -/
theorem importLink_eq (e : Explorer α) (link : List Char) :
    ∃ palette : Palette, palette.size = e.palette.size ∧
      (e.importLink link).2 = { e with palette := palette } :=
  ⟨(e.palette.importLink link).2, e.palette.size_importLink link, rfl⟩

/-- Choosing the colour of a letter touches the colours of letters only, and nothing when there is
no such stop. -/
theorem setSymbol_cases (e : Explorer α) (c : Char) (i : Nat) :
    e.setSymbol c i = e ∨
      i < e.palette.size ∧ e.setSymbol c i = { e with symbols := e.symbols.insert c i } := by
  unfold setSymbol
  split
  · next hi => exact .inr ⟨hi, rfl⟩
  · exact .inl rfl

variable [Scalar α]

/-- What is presented: the seed, in a fresh view, without a run.  The colours of its letters are
fitted, and nothing else changes. -/
theorem present_eq (e : Explorer α) (g : Grammar α) :
    ∃ symbols, e.present g =
      { e with
        scheduler := .idle
        derivation := some (Derivation.start g)
        viewport := e.viewport.reset
        symbols := symbols } :=
  ⟨_, rfl⟩

/-- What loading leads to: nothing when the key is unknown, and the grammar of its preset
otherwise. -/
theorem load_cases (e : Explorer α) (key : String) :
    (e.load key).2 = e ∨
      ∃ p : Preset α,
        (e.load key).2 = { e with presetKey := some p.key : Explorer α }.present p.grammar := by
  unfold load
  split
  · exact .inl rfl
  · next p _ => exact .inr ⟨p, rfl⟩

/-- A preset that is known is presented under its key. -/
theorem load_eq {e : Explorer α} {key : String} {p : Preset α}
    (hp : e.presets.get? key = some p) :
    e.load key = (.ok (), { e with presetKey := some p.key : Explorer α }.present p.grammar) := by
  rw [load, hp]

/-- What an editor leads to: nothing when its grammar cannot be drawn, and its grammar
otherwise. -/
theorem customize_cases (e : Explorer α) (editor : Editor α) :
    (e.customize editor).2 = e ∨ (e.customize editor).2 = e.present (e.customGrammar editor) := by
  unfold customize
  dsimp only
  split
  · exact .inl rfl
  · exact .inr rfl

/-- A grammar that can be drawn is presented. -/
theorem customize_eq {e : Explorer α} {editor : Editor α}
    (hcheck : (e.customGrammar editor).check = .ok ()) :
    e.customize editor = (.ok (), e.present (e.customGrammar editor)) := by
  simp only [customize, hcheck]

/-! ### The list -/

/-- What the operation `op` can do to the word on show and to the run of `e`. -/
inductive Effect (e : Explorer α) : Operation α → Explorer α → Prop where
  /-- Nothing, measurements apart. -/
  | quiet {op : Operation α} {e' : Explorer α} {f : Derivation α → Derivation α}
      (hf : Derivation.Measures f) (hshow : e'.derivation = e.derivation.map f)
      (hrun : e'.scheduler = e.scheduler) : Effect e op e'
  /-- One step of growth by hand, asked for directly or by a tap. -/
  | byHand {op : Operation α} {e' : Explorer α} {d : Derivation α}
      (hop : op = .grow ∨ op = .release) (hd : e.derivation = some d)
      (hsize : d.size ≤ e.limits.manual) (hshow : e'.derivation = some d.grow)
      (hrun : e'.scheduler = e.scheduler) : Effect e op e'
  /-- The seed of another grammar is shown, and a run ends. -/
  | replaced {op : Operation α} {e' : Explorer α} {g : Grammar α}
      (hop : (∃ key, op = .load key) ∨ ∃ editor, op = .customize editor)
      (hshow : e'.derivation = some (Derivation.start g)) (hrun : e'.scheduler = .idle) :
      Effect e op e'
  /-- The seed of the same grammar is shown, and a run ends. -/
  | rewound {e' : Explorer α} {d : Derivation α} (hd : e.derivation = some d)
      (hshow : e'.derivation = some d.rewind) (hrun : e'.scheduler = .idle) :
      Effect e .rewind e'
  /-- A run is called off, or is over before its first step. -/
  | calledOff {now : Moment} {e' : Explorer α} {reason : StopReason}
      (hshow : e'.derivation = e.derivation) (hrun : e'.scheduler = .idle)
      (hout : (e.toggle now).1 = .ok (some reason)) : Effect e (.toggle now) e'
  /-- A run starts. -/
  | started {now : Moment} {e' : Explorer α} {d : Derivation α}
      (hidle : e.scheduler.run = none) (hd : e.derivation = some d)
      (hgo : Scheduler.abort? d e.pace e.limits.animation d.iteration = none)
      (hshow : e'.derivation = some d)
      (hrun : e'.scheduler = ⟨some ⟨d.iteration, now + e.pace.delay⟩⟩)
      (hout : (e.toggle now).1 = .ok none) : Effect e (.toggle now) e'
  /-- A run takes its pending step and goes on. -/
  | stepped {now : Moment} {e' : Explorer α} {d : Derivation α} {r : Run}
      (hr : e.scheduler.run = some r) (hd : e.derivation = some d) (hdue : r.due ≤ now)
      (hsize : d.size ≤ e.limits.manual)
      (hgo : Scheduler.abort? d.grow e.pace e.limits.animation r.startIteration = none)
      (hshow : e'.derivation = some d.grow)
      (hrun : e'.scheduler = ⟨some ⟨r.startIteration, now + e.pace.delay⟩⟩)
      (hout : (e.tick now).1 = .stepped) : Effect e (.tick now) e'
  /-- A run takes its pending step and ends after it. -/
  | finished {now : Moment} {e' : Explorer α} {d : Derivation α} {r : Run} {reason : StopReason}
      (hr : e.scheduler.run = some r) (hd : e.derivation = some d) (hdue : r.due ≤ now)
      (hsize : d.size ≤ e.limits.manual)
      (hstop : Scheduler.abort? d.grow e.pace e.limits.animation r.startIteration = some reason)
      (hshow : e'.derivation = some d.grow) (hrun : e'.scheduler = .idle)
      (hout : (e.tick now).1 = .finished reason) : Effect e (.tick now) e'
  /-- The pending step of a run is refused, and the run ends. -/
  | refused {now : Moment} {e' : Explorer α} {d : Derivation α} {r : Run}
      (hr : e.scheduler.run = some r) (hd : e.derivation = some d) (hdue : r.due ≤ now)
      (hsize : e.limits.manual < d.size) (hshow : e'.derivation = some d)
      (hrun : e'.scheduler = .idle) (hout : (e.tick now).1 = .finished .refused) :
      Effect e (.tick now) e'
  /-- A run with nothing on show is dropped. -/
  | dropped {now : Moment} {e' : Explorer α} (hd : e.derivation = none)
      (hshow : e'.derivation = none) (hrun : e'.scheduler = .idle)
      (hout : (e.tick now).1 = .idle) : Effect e (.tick now) e'

/-- An operation that touches neither the word nor the run. -/
theorem Effect.still {e e' : Explorer α} {op : Operation α}
    (hshow : e'.derivation = e.derivation) (hrun : e'.scheduler = e.scheduler) :
    Effect e op e' :=
  .quiet .id (by rw [hshow, Option.map_id']) hrun

/-! ### Every operation is on the list -/

/-- Loading shows another seed, or does nothing. -/
theorem effect_load (e : Explorer α) (key : String) : Effect e (.load key) (e.load key).2 := by
  rcases e.load_cases key with h | ⟨p, h⟩
  · rw [h]
    exact .still rfl rfl
  · obtain ⟨symbols, hp⟩ := present_eq { e with presetKey := some p.key } p.grammar
    rw [h]
    exact .replaced (.inl ⟨key, rfl⟩) (congrArg derivation hp) (congrArg scheduler hp)

/-- So does reading the editor. -/
theorem effect_customize (e : Explorer α) (editor : Editor α) :
    Effect e (.customize editor) (e.customize editor).2 := by
  rcases e.customize_cases editor with h | h
  · rw [h]
    exact .still rfl rfl
  · obtain ⟨symbols, hp⟩ := e.present_eq (e.customGrammar editor)
    rw [h]
    exact .replaced (.inr ⟨editor, rfl⟩) (congrArg derivation hp) (congrArg scheduler hp)

/-- A step by hand is taken, or nothing happens. -/
theorem effect_grow (e : Explorer α) : Effect e .grow e.grow.2 := by
  rcases e.grow_cases with h | ⟨d, hd, hsize, h⟩
  · rw [h]
    exact .still rfl rfl
  · rw [h]
    exact .byHand (.inl rfl) hd hsize rfl rfl

/-- Letting the pointer go takes a step by hand when it was a tap. -/
theorem effect_release (e : Explorer α) : Effect e .release e.release.2 := by
  rcases e.release_cases with h | h
  · rw [h]
    exact .still rfl rfl
  · rw [h]
    -- A tap is a step by hand of the explorer without its grip, which changes neither the word nor
    -- the run.
    rcases e.letGo.grow_cases with hg | ⟨d, hd, hsize, hg⟩
    · rw [hg]
      exact .still rfl rfl
    · rw [hg]
      exact .byHand (.inr rfl) hd hsize rfl rfl

/-- Rewinding shows the seed again and ends a run. -/
theorem effect_rewind (e : Explorer α) : Effect e .rewind e.rewind.2 := by
  rcases e.rewind_cases with h | ⟨d, hd, h⟩
  · rw [h]
    exact .still rfl rfl
  · rw [h]
    exact .rewound hd rfl rfl

/-- Toggling starts a run or calls one off. -/
theorem effect_toggle (e : Explorer α) (now : Moment) :
    Effect e (.toggle now) (e.toggle now).2 := by
  rcases e.toggle_cases now with h | ⟨reason, h⟩ | ⟨d, hr, hd, hgo, h⟩
  · exact .still (by rw [h]) (by rw [h])
  · exact .calledOff (by rw [h]) (by rw [h]) (by rw [h])
  · exact .started hr hd hgo (by rw [h]; exact hd) (by rw [h]) (by rw [h])

/-- **A run looked after.** With a word on show and a run, the run waits, or is refused its step,
or takes it and is over or goes on. -/
theorem effect_tick (e : Explorer α) (now : Moment) : Effect e (.tick now) (e.tick now).2 := by
  cases hd : e.derivation with
  | none =>
    have h := tick_of_none hd now
    exact .dropped hd (by rw [h]; exact hd) (by rw [h]) (by rw [h])
  | some d =>
    -- From here on in the order in which a tick asks: is there a run, is it time, is the word short
    -- enough, is this the last step.
    cases hr : e.scheduler.run with
    | none =>
      rw [tick_of_run_eq_none hr]
      exact .still rfl rfl
    | some r =>
      by_cases hearly : now < r.due
      · rw [tick_of_early hr hd hearly]
        exact .still rfl rfl
      have hdue : r.due ≤ now := Nat.le_of_not_lt hearly
      by_cases hlong : e.limits.manual < d.size
      · have h := tick_of_lt hr hd hdue hlong
        exact .refused hr hd hdue hlong (by rw [h]; exact hd) (by rw [h]) (by rw [h])
      have hsize : d.size ≤ e.limits.manual := Nat.le_of_not_lt hlong
      rcases tick_of_le hr hd hdue hsize with ⟨reason, hstop, h⟩ | ⟨hgo, h⟩
      · exact .finished hr hd hdue hsize hstop (by rw [h]) (by rw [h]) (by rw [h])
      · exact .stepped hr hd hdue hsize hgo (by rw [h]) (by rw [h]) (by rw [h])

/-- **Nothing else happens.** Every operation does something on the list. -/
theorem effect_perform (e : Explorer α) (op : Operation α) : Effect e op (e.perform op) := by
  cases op with
  | load key => exact e.effect_load key
  | customize editor => exact e.effect_customize editor
  | grow => exact e.effect_grow
  | rewind => exact e.effect_rewind
  | toggle now => exact e.effect_toggle now
  | tick now => exact e.effect_tick now
  | release => exact e.effect_release
  -- The pointer, the view and the settings concern neither the word nor the run.
  | press p => exact .still rfl rfl
  | move p => exact .still rfl rfl
  | gesture g => exact .still rfl rfl
  | setColor i c => exact .still rfl rfl
  | setMode mode => exact .still rfl rfl
  | setAxis axis => exact .still rfl rfl
  | setStrokeWidth px => exact .still rfl rfl
  | setBackground c => exact .still rfl rfl
  | setPace pace => exact .still rfl rfl
  | importLink link =>
    obtain ⟨palette, -, h⟩ := e.importLink_eq link
    exact .still (by rw [perform, h]) (by rw [perform, h])
  | setSymbol c i =>
    rcases e.setSymbol_cases c i with h | ⟨-, h⟩
    · exact .still (by rw [perform, h]) (by rw [perform, h])
    · exact .still (by rw [perform, h]) (by rw [perform, h])
  | redraw => exact .quiet (.frame e.colorMode) rfl rfl
  | survey => exact .quiet .survey rfl rfl

end Explorer

end TurtleCurves
