import TurtleCurves.Proofs.Explorer.Growth
import TurtleCurves.Proofs.View.Release
import TurtleCurves.Scalar.Binary64

namespace TurtleCurves

/-!
# Letting the pointer go

A pointer that is let go on an explorer makes the word grow by one step if that was a tap, and does
nothing to it otherwise.  Which it was is said by the history of the view, to which presses, moves
and releases belong as well as the resets that come with another grammar.

* `Explorer.TapGrows` — the pointer is let go with a tap, on a word that may grow;
* `Explorer.derivation_release_of_tapGrows`, `Explorer.derivation_release_of_not` — what is left of
  the word;
* `Explorer.gestures`, `Explorer.gesturesAlong` — what an operation, and a history of operations, is
  to the view;
* `Explorer.viewport_performAll` — the view of an explorer has that history;
* `Explorer.steps_release_iff`, `Explorer.stepWord_release_iff`,
  `Explorer.perform?_release_eq_none_iff` — which taps are counted, and where the count ends;
* `Explorer.release_of_history` — letting go, from the beginning on.
-/

variable {α : Type}

namespace Explorer

/-! ### What is left of the word -/

/-- The pointer is let go with a tap, and the word on show is short enough to grow. -/
def TapGrows (e : Explorer α) : Prop :=
  e.viewport.panEnd.1 = .tap ∧ ∃ d ∈ e.derivation, d.size ≤ e.limits.manual

/-- A tap on a word that may grow applies the rules once. -/
theorem derivation_release_of_tapGrows {e : Explorer α} (h : e.TapGrows) :
    ∃ d, e.derivation = some d ∧ e.release.2.derivation = some d.grow := by
  obtain ⟨htap, d, hd, hsize⟩ := h
  have hgrow : e.letGo.grow = (.ok (), { e.letGo with derivation := some d.grow }) :=
    grow_of_le hd hsize
  refine ⟨d, hd, ?_⟩
  rw [release_of_tap htap hd, hgrow]

/-- Any other way of letting go leaves the word alone; so does a tap on a word that is too long. -/
theorem derivation_release_of_not {e : Explorer α} (h : ¬ e.TapGrows) :
    e.release.2.derivation = e.derivation := by
  -- It is a tap on a word that is too long, or no tap on a word.
  by_cases htap : e.viewport.release = .tap ∧ e.derivation.isSome = true
  · obtain ⟨d, hd⟩ := Option.isSome_iff_exists.mp htap.2
    have hlong : e.limits.manual < d.size :=
      Nat.lt_of_not_le fun hsize => h ⟨htap.1, d, hd, hsize⟩
    have hrefused : e.letGo.grow = (.error (.overgrown ⟨d.size, e.limits.manual⟩), e.letGo) :=
      grow_of_lt hd hlong
    rw [release_of_tap htap.1 hd, hrefused]
    rfl
  · rw [release_of_other htap]
    rfl

/-! ### The history of a view -/

/-- A step by hand leaves the view. -/
theorem viewport_grow (e : Explorer α) : e.grow.2.viewport = e.viewport := by
  rcases e.grow_cases with h | ⟨d, _, _, h⟩ <;> rw [h]

theorem viewport_rewind (e : Explorer α) : e.rewind.2.viewport = e.viewport := by
  rcases e.rewind_cases with h | ⟨d, _, h⟩ <;> rw [h]

theorem viewport_toggle (e : Explorer α) (now : Moment) :
    (e.toggle now).2.viewport = e.viewport := by
  rcases e.toggle_cases now with h | ⟨reason, h⟩ | ⟨d, _, _, _, h⟩ <;> rw [h]

theorem viewport_tick (e : Explorer α) (now : Moment) : (e.tick now).2.viewport = e.viewport := by
  unfold tick
  split <;> rfl

theorem viewport_importLink (e : Explorer α) (link : List Char) :
    (e.importLink link).2.viewport = e.viewport := by
  obtain ⟨palette, _, h⟩ := e.importLink_eq link
  rw [h]

theorem viewport_setSymbol (e : Explorer α) (c : Char) (i : Nat) :
    (e.setSymbol c i).viewport = e.viewport := by
  rcases e.setSymbol_cases c i with h | ⟨_, h⟩ <;> rw [h]

variable [Scalar α]

/-- Letting the pointer go ends the pan, whatever else it does. -/
theorem viewport_release (e : Explorer α) : e.release.2.viewport = e.viewport.perform .panEnd := by
  rcases e.release_cases with h | h
  · rw [h]
    rfl
  · rw [h, viewport_grow]
    rfl

/-- The operations on the view that an operation amounts to; another grammar resets it. -/
def gestures (e : Explorer α) (op : Operation α) : List (Viewport.Gesture α) :=
  match op with
  | .load _ | .customize _ => if (e.failure? op).isSome then [] else [.reset]
  | .press p => [.panStart p]
  | .move p => [.panMove p]
  | .release => [.panEnd]
  | .gesture g => [g]
  | _ => []

/-- Another preset resets the view, and an unknown key leaves it. -/
theorem viewport_load (e : Explorer α) (key : String) :
    (e.load key).2.viewport = e.viewport.performAll (e.gestures (.load key)) := by
  cases hp : e.presets.get? key with
  | none =>
    simp only [gestures, failure?, load, hp]
    rfl
  | some p =>
    simp only [gestures, failure?, load, hp]
    rfl

/-- Another grammar resets the view, and one that is refused leaves it. -/
theorem viewport_customize (e : Explorer α) (editor : Editor α) :
    (e.customize editor).2.viewport = e.viewport.performAll (e.gestures (.customize editor)) := by
  cases hcheck : (e.customGrammar editor).check with
  | error fault =>
    simp only [gestures, failure?, customize, hcheck]
    rfl
  | ok _ =>
    simp only [gestures, failure?, customize, hcheck]
    rfl

/-- One operation is to the view what its gestures are. -/
theorem viewport_perform (e : Explorer α) (op : Operation α) :
    (e.perform op).viewport = e.viewport.performAll (e.gestures op) := by
  cases op with
  | load key => exact e.viewport_load key
  | customize editor => exact e.viewport_customize editor
  | grow => exact e.viewport_grow
  | rewind => exact e.viewport_rewind
  | toggle now => exact e.viewport_toggle now
  | tick now => exact e.viewport_tick now
  | release => exact e.viewport_release
  | importLink link => exact e.viewport_importLink link
  | setSymbol c i => exact e.viewport_setSymbol c i
  -- The rest either is a gesture itself or leaves the view alone.
  | press | move | gesture | setColor | setMode | setAxis | setStrokeWidth | setBackground | setPace
  | redraw | survey => rfl

/-- The operations on the view that a history amounts to. -/
def gesturesAlong : Explorer α → List (Operation α) → List (Viewport.Gesture α)
  | _, [] => []
  | e, op :: ops => e.gestures op ++ gesturesAlong (e.perform op) ops

/-- **A history** is to the view what its gestures are. -/
theorem viewport_performAll (e : Explorer α) (ops : List (Operation α)) :
    (e.performAll ops).viewport = e.viewport.performAll (e.gesturesAlong ops) := by
  induction ops generalizing e with
  | nil => rfl
  | cons op ops ih =>
    rw [performAll_cons, ih, viewport_perform, gesturesAlong]
    exact List.foldl_append.symm

/-! ### The count of steps -/

omit [Scalar α] in
/-- A tap on a word that may grow adds a step, and nothing else does. -/
theorem steps_release_iff {e : Explorer α} :
    e.release.2.steps = e.steps + 1 ↔ e.TapGrows := by
  refine ⟨fun hstep => ?_, fun htap => ?_⟩
  · by_contra hnot
    rw [steps, derivation_release_of_not hnot] at hstep
    exact absurd hstep (Nat.ne_of_lt (Nat.lt_succ_self e.steps))
  · obtain ⟨d, hd, hgrown⟩ := derivation_release_of_tapGrows htap
    rw [steps_of_derivation hd, steps_of_derivation hgrown]
    rfl

omit [Scalar α] in
/-- Any other way of letting go adds no step. -/
theorem steps_release_of_not {e : Explorer α} (h : ¬ e.TapGrows) :
    e.release.2.steps = e.steps := by
  rw [steps, steps, derivation_release_of_not h]

/-- The count of steps as a word of 32 bits, which begins again at zero. -/
def stepWord (e : Explorer α) : UInt32 := UInt32.ofNat e.steps

omit [Scalar α] in
/-- A word of 32 bits that begins again at zero is counted on by the same steps. -/
theorem stepWord_release_iff {e : Explorer α} :
    e.release.2.stepWord = e.stepWord + 1 ↔ e.TapGrows := by
  refine ⟨fun hword => ?_, fun htap => ?_⟩
  · by_contra hnot
    rw [stepWord, steps_release_of_not hnot] at hword
    -- A word differs from the one after it, also where that is zero.
    have hnext : UInt32.ofNat e.steps + 1 - UInt32.ofNat e.steps = 1 := by
      rw [UInt32.add_comm, UInt32.add_sub_cancel]
    rw [show UInt32.ofNat e.steps + 1 = UInt32.ofNat e.steps from hword.symm,
      UInt32.sub_self] at hnext
    exact absurd hnext (by decide)
  · rw [stepWord, steps_release_iff.mpr htap, UInt32.ofNat_add]
    rfl

/-- **The end of the count.** Letting go ends the program exactly where a tap asks for a step that
32 bits have no room for. -/
theorem perform?_release_eq_none_iff {e : Explorer α} (hcounted : e.steps < UInt32.size) :
    e.perform? .release = none ↔ e.TapGrows ∧ e.steps + 1 = UInt32.size := by
  rw [perform?, counted?_eq_none_iff]
  show UInt32.size ≤ e.release.2.steps ↔ _
  by_cases htap : e.TapGrows
  · rw [steps_release_iff.mpr htap, and_iff_right htap]
    omega
  · rw [steps_release_of_not htap]
    exact iff_of_false (Nat.not_le.mpr hcounted) fun h => htap h.1

/-- **Letting go, from the beginning on.** In the history of a view that begins anew, look for the
latest press, release, end of a pinch or reset.  If there is none, or if that one has left no
pointer held, letting go means nothing; after a press that neither a move nor a second finger has
marked it is a tap; and it is a drag after a press that has been marked, or after a pinch that has
left a finger.  The view of an explorer has such a history.  Letting go there adds exactly one step
to the word if it is a tap, something is on show and that is not above the ceiling, and else leaves
the word as it is; the program only ends in it if the step is the first that cannot be counted.  In
a count that begins again at zero, the same taps are exactly one step. -/
theorem release_of_history (width height : α) :
    (∀ gs : List (Viewport.Gesture α),
      let outcome := ((Viewport.ofSize width height).performAll gs).panEnd.1
      (outcome = .idle ↔
        (∀ g ∈ gs, ¬ g.settles) ∨
          ∃ g after, Latest (·.settles = true) gs g after ∧ g.frees = true) ∧
      (outcome = .tap ↔
        ∃ p after, Latest (·.settles = true) gs (.panStart p) after ∧ ∀ g ∈ after, ¬ g.marks) ∧
      (outcome = .drag ↔
        (∃ p after, Latest (·.settles = true) gs (.panStart p) after ∧
            ∃ g ∈ after, g.marks = true) ∨
          ∃ p after, Latest (·.settles = true) gs (.pinchEnd (some p)) after)) ∧
    (∀ (s : Settings α) (ops : List (Operation α)),
      let start := ofSettings s width height
      (start.performAll ops).viewport =
          (Viewport.ofSize width height).performAll (start.gesturesAlong ops) ∧
        ∀ e, start.performAll? ops = some e →
          e = start.performAll ops ∧
            (e.perform? .release = none ↔ e.TapGrows ∧ e.steps + 1 = UInt32.size) ∧
            ∀ e', e.perform? .release = some e' →
              e' = e.release.2 ∧ (e'.steps = e.steps + 1 ↔ e.TapGrows) ∧
                (¬ e.TapGrows → e'.derivation = e.derivation)) ∧
    ∀ e : Explorer α,
      (e.release.2.stepWord = e.stepWord + 1 ↔ e.TapGrows) ∧
        (¬ e.TapGrows → e.release.2.derivation = e.derivation) := by
  refine ⟨fun gs => ?_, fun s ops => ?_, fun e => ?_⟩
  -- The view starts with nothing held, which is what the answers are counted from.
  · have hidle : (Viewport.ofSize width height).release = .idle := rfl
    exact ⟨Viewport.release_eq_idle_iff hidle, Viewport.release_eq_tap_iff hidle,
      Viewport.release_eq_drag_iff hidle⟩
  · intro start
    refine ⟨viewport_performAll start ops, fun e hrun => ?_⟩
    -- A history that the counter can follow is the same with and without the counter.
    obtain ⟨hend, hcounted⟩ := performAll_of_performAll? (steps_ofSettings s width height) hrun
    refine ⟨hend.symm, perform?_release_eq_none_iff hcounted, fun e' hrelease => ?_⟩
    obtain ⟨rfl, -⟩ := counted?_eq_some_iff.mp hrelease
    exact ⟨rfl, steps_release_iff, derivation_release_of_not⟩
  · exact ⟨stepWord_release_iff, derivation_release_of_not⟩

/-- A press that another preset takes the hold from, and a press after that. -/
theorem release_of_history_dragon :
    let start := ofSettings (Settings.default : Settings Float) 100 100
    let ops : List (Operation Float) := [.load "koch", .press ⟨40, 50⟩, .load "dragon"]
    let e := start.performAll ops
    let e' := start.performAll (ops ++ [.press ⟨40, 50⟩])
    (start.performAll? ops = some e ∧ ¬ e.TapGrows ∧ e.perform? .release = some e.release.2 ∧
        e.release.2.derivation = e.derivation) ∧
      start.performAll? (ops ++ [.press ⟨40, 50⟩]) = some e' ∧ e'.TapGrows ∧
        e'.perform? .release = some e'.release.2 ∧ e'.release.2.steps = e'.steps + 1 := by
  intro start ops e e'
  have hrun : start.performAll? ops = some e := rfl
  have hrun' : start.performAll? (ops ++ [.press ⟨40, 50⟩]) = some e' := rfl
  -- Loading another preset between the press and the release makes a fresh view.
  have hnot : ¬ e.TapGrows := fun htap => by
    have hidle : e.viewport.panEnd.1 ≠ .tap := by decide +kernel
    exact hidle htap.1
  have htap : e'.TapGrows := ⟨by decide +kernel, by decide +kernel⟩
  have hrelease : e.perform? .release = some e.release.2 := rfl
  have hrelease' : e'.perform? .release = some e'.release.2 := rfl
  obtain ⟨_, hexplorer, _⟩ := release_of_history (100 : Float) 100
  obtain ⟨_, _, hleaves⟩ := (hexplorer Settings.default ops).2 e hrun
  obtain ⟨_, _, hleaves'⟩ := (hexplorer Settings.default _).2 e' hrun'
  obtain ⟨_, _, hstays⟩ := hleaves _ hrelease
  obtain ⟨_, hgrows, _⟩ := hleaves' _ hrelease'
  exact ⟨⟨hrun, hnot, hrelease, hstays hnot⟩, hrun', htap, hrelease', hgrows.mpr htap⟩

end Explorer

end TurtleCurves
