import TurtleCurves.Proofs.Explorer.Effect

namespace TurtleCurves

/-!
# What an operation writes

An operation writes a few parts of an explorer and leaves the others alone.

* `Explorer.Writes` — the list of the parts that are written together;
* `Explorer.writes_perform` — every operation writes what is on the list;
* `Explorer.presets_perform`, `Explorer.limits_perform`, `Explorer.presetKey_perform`,
  `Explorer.pace_perform` — the presets and the limits never change, the selected preset only with
  the grammar, and the pace only when it is set.
-/

variable {α : Type}

/-- The operation asks for another grammar. -/
def Operation.asksGrammar : Operation α → Bool
  | .load _ | .customize _ => true
  | _ => false

namespace Explorer

variable [Scalar α]

/-! ### The list -/

/-- The parts of `e` that the operation `op` can write. -/
inductive Writes (e : Explorer α) : Operation α → Explorer α → Prop where
  /-- None. -/
  | nothing {op : Operation α} : Writes e op e
  /-- The word, the run and the view. -/
  | scene {op : Operation α} (hop : op.asksGrammar = false) (shown : Option (Derivation α))
      (scheduler : Scheduler) (view : Viewport α) :
      Writes e op { e with derivation := shown, scheduler := scheduler, viewport := view }
  /-- Everything that goes with another grammar. -/
  | presented {op : Operation α} (hop : op.asksGrammar = true) (key : Option String)
      (g : Grammar α) : Writes e op (present { e with presetKey := key } g)
  /-- Palette stops; there are as many as before. -/
  | palette {op : Operation α} {palette : Palette} (hsize : palette.size = e.palette.size) :
      Writes e op { e with palette := palette }
  /-- The stop of a letter; the palette has it. -/
  | symbol (c : Char) {i : Nat} (hi : i < e.palette.size) :
      Writes e (.setSymbol c i) { e with symbols := e.symbols.insert c i }
  /-- How strokes are coloured, how thick they are, and what is behind them. -/
  | style {op : Operation α} (mode : ColorMode) (axis : PositionAxis) (px : α) (background : Rgb) :
      Writes e op
        { e with colorMode := mode, axis := axis, strokeWidth := px, background := background }
  /-- The pace. -/
  | pace (pace : Pace) : Writes e (.setPace pace) { e with pace := pace }

/-! ### Every operation is on the list -/

/-- What letting go writes. -/
theorem writes_release (e : Explorer α) : Writes e .release e.release.2 := by
  rcases e.release_cases with h | h
  · rw [h]
    exact .scene rfl _ _ e.letGo.viewport
  · rw [h]
    rcases e.letGo.grow_cases with hg | ⟨d, _, _, hg⟩
    · rw [hg]
      exact .scene rfl _ _ e.letGo.viewport
    · rw [hg]
      exact .scene rfl (some d.grow) _ e.letGo.viewport

/-- **Nothing else is written.** -/
theorem writes_perform (e : Explorer α) (op : Operation α) : Writes e op (e.perform op) := by
  cases op with
  | load key =>
    -- An operation that fails writes nothing; the case lemmas say what it writes otherwise.
    rcases e.load_cases key with h | ⟨p, h⟩
    · rw [perform, h]
      exact .nothing
    · rw [perform, h]
      exact .presented rfl (some p.key) p.grammar
  | customize editor =>
    rcases e.customize_cases editor with h | h
    · rw [perform, h]
      exact .nothing
    · rw [perform, h]
      exact .presented rfl e.presetKey (e.customGrammar editor)
  | grow =>
    rcases e.grow_cases with h | ⟨d, _, _, h⟩
    · rw [perform, h]
      exact .nothing
    · rw [perform, h]
      exact .scene rfl (some d.grow) _ _
  | rewind =>
    rcases e.rewind_cases with h | ⟨d, _, h⟩
    · rw [perform, h]
      exact .nothing
    · rw [perform, h]
      exact .scene rfl (some d.rewind) .idle _
  | toggle now =>
    rcases e.toggle_cases now with h | ⟨reason, h⟩ | ⟨d, _, _, _, h⟩
    · rw [perform, h]
      exact .nothing
    · rw [perform, h]
      exact .scene rfl _ .idle _
    · rw [perform, h]
      exact .scene rfl _ ⟨some ⟨d.iteration, now + e.pace.delay⟩⟩ _
  | tick now =>
    show Writes e _ (e.tick now).2
    unfold tick
    split
    · exact .scene rfl _ e.scheduler.stop _
    · exact .scene rfl _ _ _
  | release => exact e.writes_release
  | press p => exact .scene rfl _ _ (e.viewport.perform (.panStart p))
  | move p => exact .scene rfl _ _ (e.viewport.perform (.panMove p))
  | gesture g => exact .scene rfl _ _ (e.viewport.perform g)
  | redraw => exact .scene rfl e.redrawn.derivation _ _
  | survey => exact .scene rfl e.surveyed.derivation _ _
  | setColor i c => exact .palette (e.palette.size_set i c)
  | importLink link =>
    obtain ⟨palette, hsize, h⟩ := e.importLink_eq link
    rw [perform, h]
    exact .palette hsize
  | setSymbol c i =>
    rcases e.setSymbol_cases c i with h | ⟨hi, h⟩
    · rw [perform, h]
      exact .nothing
    · rw [perform, h]
      exact .symbol c hi
  | setMode mode => exact .style mode _ _ _
  | setAxis axis => exact .style _ axis _ _
  | setStrokeWidth px => exact .style _ _ px _
  | setBackground c => exact .style _ _ _ c
  | setPace pace => exact .pace pace

/-! ### What stays -/

/-- No operation changes the presets or the limits, and only setting the pace changes that. -/
theorem Writes.kept {e e' : Explorer α} {op : Operation α} (h : Writes e op e') :
    e'.presets = e.presets ∧ e'.limits = e.limits ∧
      (e'.pace = e.pace ∨ op = .setPace e'.pace) := by
  cases h with
  | pace pace => exact ⟨rfl, rfl, .inr rfl⟩
  | _ => exact ⟨rfl, rfl, .inl rfl⟩

/-- The selected preset is written only together with the grammar. -/
theorem Writes.presetKey {e e' : Explorer α} {op : Operation α} (h : Writes e op e')
    (hop : op.asksGrammar = false) : e'.presetKey = e.presetKey := by
  cases h with
  | presented hother =>
    rw [hop] at hother
    cases hother
  | _ => rfl

@[simp] theorem presets_perform (e : Explorer α) (op : Operation α) :
    (e.perform op).presets = e.presets := (e.writes_perform op).kept.1

@[simp] theorem limits_perform (e : Explorer α) (op : Operation α) :
    (e.perform op).limits = e.limits := (e.writes_perform op).kept.2.1

/-- The selected preset stays as long as no other grammar is asked for. -/
theorem presetKey_perform (e : Explorer α) {op : Operation α} (hop : op.asksGrammar = false) :
    (e.perform op).presetKey = e.presetKey := (e.writes_perform op).presetKey hop

/-- Only one operation changes the pace. -/
theorem pace_perform_or (e : Explorer α) (op : Operation α) :
    (e.perform op).pace = e.pace ∨ op = .setPace (e.perform op).pace :=
  (e.writes_perform op).kept.2.2

/-- The pace changes only when it is set. -/
theorem pace_perform (e : Explorer α) {op : Operation α} (h : ∀ pace, op ≠ .setPace pace) :
    (e.perform op).pace = e.pace :=
  (e.pace_perform_or op).resolve_right (h _)

end Explorer

end TurtleCurves
