import TurtleCurves.Proofs.Explorer.Failures
import TurtleCurves.Proofs.Explorer.Shown
import TurtleCurves.Proofs.Grammar.Length
import TurtleCurves.Scalar.Binary64

namespace TurtleCurves

/-!
# The ceiling of growth

Whoever asks for growth, by hand, by a tap or by a run, asks at one place: a word above the ceiling
of steps by hand does not grow.  The ceiling is about the word before the step, so that a word on
show can be longer than it, but only by what one step makes of it.

* `Explorer.asksGrowth`, `Explorer.refuses` — an operation asks for a step, and answers that it is
  refused;
* `Explorer.refuses_iff`, `Explorer.grows_iff_le` — what asks is refused above the ceiling, and
  grows the word otherwise;
* `Derivation.Bounded` — the length that one step can lead to, kept by all operations;
* `Explorer.size_of_reachable` — the length of a word on show, and when a step is refused.
-/

variable {α : Type}

/-! ### Lengths -/

namespace Derivation

/-- The word is no longer than the seed, or than a word at the ceiling is after one step. -/
def Bounded (ceiling : Nat) (d : Derivation α) : Prop :=
  d.size ≤ max d.grammar.seed.byteLength (ceiling * max 1 d.grammar.rules.longest)

namespace Bounded

variable {ceiling : Nat} {d : Derivation α}

theorem start (g : Grammar α) : Bounded ceiling (start g) := Nat.le_max_left _ _

theorem rewind (d : Derivation α) : Bounded ceiling d.rewind := Nat.le_max_left _ _

/-- A step that is not refused. -/
theorem grow (hsize : d.size ≤ ceiling) : Bounded ceiling d.grow := by
  have hstep : d.grow.size ≤ ceiling * max 1 d.grammar.rules.longest :=
    calc d.grow.size
        ≤ d.size * max 1 d.grammar.rules.longest := d.grammar.rules.byteLength_apply_le d.sentence
      _ ≤ ceiling * max 1 d.grammar.rules.longest := Nat.mul_le_mul_right _ hsize
  exact Nat.le_trans hstep (Nat.le_max_right _ _)

/-- Measurements change no length. -/
theorem measures [Scalar α] {f : Derivation α → Derivation α} (hf : Measures f)
    (h : Bounded ceiling d) : Bounded ceiling (f d) := by
  show (f d).sentence.byteLength ≤ _
  rw [hf.sentence, hf.grammar]
  exact h

end Bounded

end Derivation

/-- An operation is a tick or it is not. -/
theorem Operation.tick_or (op : Operation α) : (∃ now, op = .tick now) ∨ op.isTick = false := by
  cases op with
  | tick now => exact .inl ⟨now, rfl⟩
  | _ => exact .inr rfl

/-- The word was too long. -/
def Failure.isOvergrown : Failure α → Bool
  | .overgrown _ => true
  | _ => false

namespace Explorer

/-! ### Asking for growth -/

/-- The operation asks the word on show for a step: by hand, by a tap, or because the pending step
of a run is due. -/
def asksGrowth (e : Explorer α) : Operation α → Bool
  | .grow => e.derivation.isSome
  | .release => e.viewport.release = .tap && e.derivation.isSome
  | .tick now => e.scheduler.run.any (·.due ≤ now) && e.derivation.isSome
  | _ => false

variable {e : Explorer α} {d : Derivation α}

/-- What asks for a step of a run: that it is due.  What else is found of the word is found of the
one on show. -/
theorem asksGrowth_tick_iff (hd : e.derivation = some d) {now : Moment} {p : Derivation α → Prop} :
    (∃ r d', e.scheduler.run = some r ∧ e.derivation = some d' ∧ r.due ≤ now ∧ p d') ↔
      e.asksGrowth (.tick now) = true ∧ p d := by
  have hasks : e.asksGrowth (.tick now) = true ↔ ∃ r, e.scheduler.run = some r ∧ r.due ≤ now := by
    simp only [asksGrowth, hd, Option.isSome_some, Bool.and_true]
    cases e.scheduler.run <;> simp
  rw [hasks]
  constructor
  · rintro ⟨r, d', hr, hd', hdue, hp⟩
    obtain rfl := Option.some.inj (hd'.symm.trans hd)
    exact ⟨⟨r, hr, hdue⟩, hp⟩
  · rintro ⟨⟨r, hr, hdue⟩, hp⟩
    exact ⟨r, d, hr, hd, hdue, hp⟩

/-- What asks for any other step: to grow, or a tap. -/
theorem asksGrowth_iff (hd : e.derivation = some d) {op : Operation α} (hop : op.isTick = false) :
    e.asksGrowth op = true ↔ op = .grow ∨ op = .release ∧ e.viewport.release = .tap := by
  cases op with
  | tick now => cases hop
  | _ => simp [asksGrowth, hd]

variable [Scalar α]

/-- Only a step by hand, a pointer that is let go and a run make a word grow. -/
theorem asks_of_grows {op : Operation α} (h : e.grows op = true) :
    op = .grow ∨ op = .release ∨ ∃ now, op = .tick now := by
  cases e.effect_perform op with
  | byHand hop => exact hop.imp_right .inl
  | quiet hf hshow =>
    rw [grows_of_measures hf hshow] at h
    cases h
  | replaced _ hshow | rewound _ hshow =>
    -- A seed is no grown word: no step has led to it.
    rw [grows, steps_of_derivation hshow] at h
    exact absurd (of_decide_eq_true h) (Nat.not_lt_zero _)
  | calledOff hshow =>
    rw [grows_of_same hshow] at h
    cases h
  | started _ hd _ hshow =>
    rw [grows_of_same (hshow.trans hd.symm)] at h
    cases h
  | _ => exact .inr (.inr ⟨_, rfl⟩)

/-! ### Refused or taken -/

/-- The operation answers that a step is refused. -/
def refuses (e : Explorer α) : Operation α → Bool
  | .tick now => (e.tick now).1 = .finished .refused
  | op => (e.failure? op).any Failure.isOvergrown

/-- Any other operation is refused a step if that is its failure. -/
theorem refuses_iff_exists {op : Operation α} (hop : op.isTick = false) :
    e.refuses op = true ↔ ∃ refusal, e.failure? op = some (.overgrown refusal) := by
  have hrefuses : e.refuses op = (e.failure? op).any Failure.isOvergrown := by
    cases op with
    | tick now => cases hop
    | _ => rfl
  rw [hrefuses]
  cases e.failure? op with
  | none => simp
  | some f => cases f <;> simp [Failure.isOvergrown]

/-- **Refused.** What asks for a step is refused when the word is above the ceiling, and nothing
else is. -/
theorem refuses_iff (hd : e.derivation = some d) {op : Operation α} :
    e.refuses op = true ↔ e.asksGrowth op = true ∧ e.limits.manual < d.size := by
  -- A tick answers with a refusal of its own; any other operation refuses by failing.
  rcases op.tick_or with ⟨now, rfl⟩ | hop
  · have hrefused : e.refuses (.tick now) = true ↔ (e.tick now).1 = .finished .refused :=
      decide_eq_true_iff
    rw [hrefused, tick_refused_iff]
    exact asksGrowth_tick_iff hd
  · rw [refuses_iff_exists hop, asksGrowth_iff hd hop]
    constructor
    · rintro ⟨refusal, hfail⟩
      cases failure?_eq_some_iff.mp hfail with
      | overgrown hasks hd' hsize =>
        obtain rfl := Option.some.inj (hd'.symm.trans hd)
        exact ⟨hasks, hsize⟩
    · rintro ⟨hasks, hsize⟩
      exact ⟨_, failure?_eq_some_iff.mpr (.overgrown hasks hd hsize)⟩

/-- **Grown.** What asks for a step takes it when the word is not above the ceiling, and nothing
else makes a word grow. -/
theorem grows_iff_le (hd : e.derivation = some d) {op : Operation α} :
    e.grows op = true ↔ e.asksGrowth op = true ∧ d.size ≤ e.limits.manual := by
  rcases op.tick_or with ⟨now, rfl⟩ | hop
  · rw [tick_grows_iff]
    exact asksGrowth_tick_iff hd
  · rw [asksGrowth_iff hd hop]
    constructor
    · intro hgrows
      have hmoved : (e.perform op).derivation ≠ e.derivation := by
        intro hsame
        rw [grows_of_same hsame] at hgrows
        cases hgrows
      have hasks : op = .grow ∨ op = .release ∧ e.viewport.release = .tap := by
        rcases asks_of_grows hgrows with rfl | rfl | ⟨now, rfl⟩
        · exact .inl rfl
        · refine .inr ⟨rfl, ?_⟩
          by_contra htap
          have hrelease := release_of_other fun h => htap h.1
          exact hmoved (congrArg (fun outcome => outcome.2.derivation) hrelease)
        · cases hop
      -- What is refused leaves the word on show, and so has not grown it.
      refine ⟨hasks, Nat.le_of_not_lt fun hsize => hmoved ?_⟩
      have hfails : e.Fails op (.overgrown ⟨d.size, e.limits.manual⟩) := .overgrown hasks hd hsize
      rcases hasks with rfl | ⟨rfl, -⟩
      · exact congrArg derivation (perform_of_fails hfails nofun)
      · have hletGo := (perform_release_of_failure? (failure?_of_fails hfails)).2
        show (e.perform .release).derivation = e.letGo.derivation
        rw [hletGo]
    · rintro ⟨rfl | ⟨rfl, htap⟩, hsize⟩
      · refine grows_iff.mpr ⟨d, hd, ?_⟩
        show e.grow.2.derivation = some d.grow
        rw [grow_of_le hd hsize]
      · refine grows_iff.mpr ⟨d, hd, ?_⟩
        have hgrow : e.letGo.grow = _ := grow_of_le hd hsize
        show e.release.2.derivation = some d.grow
        rw [release_of_tap htap hd, hgrow]

/-! ### Words on show -/

/-- **Lengths and refusals.** Whatever was loaded, typed in, grown by hand, by taps and by runs, and
rewound before: the word on show is at most as long in bytes as the seed, or as the ceiling times
the longest expansion.  An operation is refused a step exactly when it asks for one and the word is
above the ceiling, and makes the word grow exactly when it asks for a step and the word is not. -/
theorem size_of_reachable (he : Reachable e) (hd : e.derivation = some d) :
    d.size ≤ max d.grammar.seed.byteLength (e.limits.manual * max 1 d.grammar.rules.longest) ∧
      ∀ op,
        (e.refuses op = true ↔ e.asksGrowth op = true ∧ e.limits.manual < d.size) ∧
          (e.grows op = true ↔ e.asksGrowth op = true ∧ d.size ≤ e.limits.manual) := by
  refine ⟨?_, fun op => ⟨refuses_iff hd, grows_iff_le hd⟩⟩
  have hbounded : d.Bounded e.limits.manual :=
    Reachable.shown .start (fun d hsize _ => .grow hsize) (fun d _ => .rewind d)
      (fun f hf d h => h.measures hf) he rfl hd
  exact hbounded

/-- A curve of eight bytes for each letter, above a ceiling of ten: it has grown by a tap and in a
run, from one byte to eight and to thirty-six, and now none of the three ways grows it. -/
theorem size_of_reachable_koch :
    let limits : Limits := ⟨10, 100⟩
    let s : Settings Float := { Settings.default with limits := limits }
    let e := (ofSettings s 8 8).performAll
      [.load "koch", .toggle 0, .press ⟨1, 1⟩, .release, .tick 500, .press ⟨1, 1⟩]
    Reachable e ∧ ∃ d, e.derivation = some d ∧ d.size = 36 ∧
      d.size ≤ max d.grammar.seed.byteLength (e.limits.manual * max 1 d.grammar.rules.longest) ∧
      e.refuses .grow = true ∧ e.refuses .release = true ∧ e.refuses (.tick 1000) = true ∧
      e.refuses (.tick 999) = false := by
  intro limits s e
  have he : Reachable e := (Reachable.start _ _ _).performAll _
  have hshown : e.derivation.map Derivation.size = some 36 := by decide +kernel
  obtain ⟨d, hd, hsize⟩ := Option.map_eq_some_iff.mp hshown
  obtain ⟨hbound, hops⟩ := size_of_reachable he hd
  have hlimit : e.limits.manual < d.size := by rw [hsize]; decide +kernel
  have hwaits : e.asksGrowth (.tick 999) = false := by decide +kernel
  -- The last tick comes a moment before the run is due, so it asks for nothing.
  refine ⟨he, d, hd, hsize, hbound, (hops _).1.mpr ⟨?_, hlimit⟩, (hops _).1.mpr ⟨?_, hlimit⟩,
    (hops _).1.mpr ⟨?_, hlimit⟩, ?_⟩
  · decide +kernel
  · decide +kernel
  · decide +kernel
  · refine Bool.eq_false_iff.mpr fun hrefused => ?_
    rw [((hops _).1.mp hrefused).1] at hwaits
    cases hwaits

end Explorer

end TurtleCurves
