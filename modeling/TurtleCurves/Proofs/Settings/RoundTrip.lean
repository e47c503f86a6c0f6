import TurtleCurves.Proofs.Settings.Colors
import TurtleCurves.Proofs.SortedMap
import TurtleCurves.Scalar.Binary64

namespace TurtleCurves

/-!
# Settings stored and read again

* `Grammar.ofFields?_toFields`, `Preset.ofValue?_toValue` — a preset and its grammar share one map;
  whatever the grammar is, the preset is read again;
* `Pace.ofValue?_toValue`, `Limits.ofValue?_toValue` — counts are read again within their widths;
* `Settings.Storable` — the counts of settings fit into their fields;
* `Settings.ofValue?_toValue_of_storable` — storable settings are read again from their tree.
-/

variable {α : Type} [Scalar α]

/-! ### Presets -/

/-- A stored point is read again. -/
@[simp] theorem Point.ofValue?_toValue (p : Point α) : ofValue? p.toValue = some p := by
  have hfields : p.toValue.fields? = some (Fields.written [("x", .real p.x), ("y", .real p.y)]) :=
    Value.fields?_record _
  rw [ofValue?, hfields]
  · simp [Fields.require?_written, Value.real?, List.lookup_cons]
  · simp [toValue, Value.record]

omit [Scalar α] in
/-- Stored rules are read again. -/
@[simp] theorem Rules.ofValue?_toValue (r : Rules) : ofValue? (r.toValue : Value α) = some r := by
  have hentries : (r.entries.map fun e => ((.text [e.1], .text e.2) : Value α × Value α)).mapM
      (fun e => do return (← e.1.letter?, ← e.2.text?)) = some r.entries := by
    apply Value.mapM_written_self
    intro e
    rfl
  rw [toValue, ofValue?, hentries, Option.map_eq_map, Option.map_some, SortedMap.ofList_entries]

/-- The fields of a grammar are told apart by their looks already. -/
theorem Grammar.typed?_toFields (g : Grammar α) : ∀ f ∈ g.toFields, f.2.typed? = some f.2 := by
  have hrules : g.rules.toValue.typed? = some (g.rules.toValue : Value α) := by
    refine Value.typed?_map fun e he => ?_
    obtain ⟨rule, -, rfl⟩ := List.mem_map.mp he
    exact ⟨rfl, rfl⟩
  have horigin : g.origin.toValue.typed? = some g.origin.toValue :=
    Value.typed?_record (by simp [Value.typed?])
  simp [toFields, Value.typed?, hrules, horigin]

/-- The fields of a grammar are read again. -/
@[simp] theorem Grammar.ofFields?_toFields (g : Grammar α) :
    ofFields? (Fields.written g.toFields) = some g := by
  have hnodup : (g.toFields.map Prod.fst).Nodup := by simp [toFields]
  rw [ofFields?]
  simp only [Fields.require?_written hnodup, Fields.optional?_written hnodup]
  simp [toFields, List.lookup_cons, Value.real?, Value.text?]

omit [Scalar α] in
/-- Key and name set apart, the fields of a preset are those of its grammar. -/
theorem Preset.filter_isOwnField (p : Preset α) :
    (Fields.written (("key", .ofString p.key) :: ("name", .ofString p.name) ::
      p.grammar.toFields)).filter (fun f => !isOwnField f.1) =
        Fields.written p.grammar.toFields := by
  simp [Fields.written, Grammar.toFields, isOwnField]

/-- **A stored preset is read again,** whether or not its grammar can be drawn. -/
@[simp] theorem Preset.ofValue?_toValue (p : Preset α) : ofValue? p.toValue = some p := by
  have hnodup : ((("key", Value.ofString p.key) :: ("name", Value.ofString p.name) ::
    p.grammar.toFields).map Prod.fst).Nodup := by simp [Grammar.toFields]
  -- What is left for the grammar is read by looks, and none of it looks like anything else.
  have hothers : (Fields.written p.grammar.toFields).mapM (fun f => f.2.typed?.map (f.1, ·)) =
      some (Fields.written p.grammar.toFields) :=
    Value.mapM_written fun f hf => by simp only [Grammar.typed?_toFields p.grammar f hf]; rfl
  rw [ofValue?, toValue, Value.fields?_record]
  simp only [Option.bind_eq_bind, Option.bind_some, Fields.require?_written hnodup,
    filter_isOwnField, hothers, Grammar.ofFields?_toFields]
  simp [List.lookup_cons]

/-! ### Counts -/

omit [Scalar α] in
/-- A stored count is read again below its limit. -/
theorem Value.natural?_count {limit n : Nat} (h : n < limit) :
    natural? limit (count n : Value α) = some n := by
  simp [natural?, count, h]

omit [Scalar α] in
/-- A stored pace is read again. -/
theorem Pace.ofValue?_toValue {p : Pace} (hdelay : p.delay < Value.wide)
    (hsteps : p.maxSteps < Value.narrow) : ofValue? (p.toValue : Value α) = some p := by
  rw [ofValue?, toValue, Value.fields?_record]
  -- Each step is proved, for by definition the kernel would count up to the limits.
  simp -implicitDefEqProofs [Fields.require?_written, List.lookup_cons, Value.natural?_count hdelay,
    Value.natural?_count hsteps]

omit [Scalar α] in
/-- Stored limits are read again. -/
theorem Limits.ofValue?_toValue {l : Limits} (hmanual : l.manual < Value.wide)
    (hanimation : l.animation < Value.wide) : ofValue? (l.toValue : Value α) = some l := by
  rw [ofValue?, toValue, Value.fields?_record]
  simp -implicitDefEqProofs [Fields.optional?_written, List.lookup_cons,
    Value.natural?_count hmanual, Value.natural?_count hanimation]

/-! ### Names -/

omit [Scalar α] in
@[simp] theorem ColorMode.ofValue?_name (m : ColorMode) :
    ofValue? (.ofString m.name : Value α) = some m := by
  rw [ofValue?, Value.text?_ofString, Option.bind_some, String.ofList_toList]
  cases m <;> decide

omit [Scalar α] in
@[simp] theorem PositionAxis.ofValue?_name (a : PositionAxis) :
    ofValue? (.ofString a.name : Value α) = some a := by
  rw [ofValue?, Value.text?_ofString, Option.bind_some, String.ofList_toList]
  cases a <;> decide

/-! ### Settings -/

namespace Settings

/-- The counts of settings fit into their fields: delays and limits are 64 bits wide, the bound on
steps 32. -/
structure Storable (s : Settings α) : Prop where
  delay : s.pace.delay < Value.wide
  maxSteps : s.pace.maxSteps < Value.narrow
  manual : s.limits.manual < Value.wide
  animation : s.limits.animation < Value.wide

/-- **Stored settings are read again:** presets that cannot be drawn and presets of one key
included. -/
theorem ofValue?_toValue_of_storable {s : Settings α} (h : s.Storable) :
    ofValue? s.toValue = some s := by
  have hpresets : (s.presets.map Preset.toValue).mapM Preset.ofValue? = some s.presets :=
    Value.mapM_written_self Preset.ofValue?_toValue s.presets
  rw [ofValue?, toValue, Value.fields?_record]
  simp [Fields.optional?_written, List.lookup_cons, Value.items?, hpresets, Value.real?,
    Pace.ofValue?_toValue h.delay h.maxSteps, Limits.ofValue?_toValue h.manual h.animation]

/-- Two presets of one key and without a drawing, colours that are not the usual ones, and the
highest limits. -/
theorem ofValue?_toValue_of_twins :
    let twin : Preset Float :=
      ⟨"twin", "~",
        ⟨['F'], SortedMap.ofList [('F', "F-F".toList), ('\u00e4', [])], 60, -1, 0, ⟨2, 2⟩⟩⟩
    let s : Settings Float :=
      ⟨[twin, twin], Palette.ofList [⟨10, 11, 12⟩], ⟨255, 0, 171⟩, 0, .perSymbol, .radial,
        ⟨0, 4294967295⟩, ⟨18446744073709551615, 0⟩⟩
    s.Storable ∧ ofValue? s.toValue = some s := by
  intro twin s
  have hnarrow : 4294967295 < 2 ^ 32 := by omega
  have hwide : 18446744073709551615 < 2 ^ 64 := by omega
  have hs : s.Storable := ⟨Nat.two_pow_pos 64, hnarrow, hwide, Nat.two_pow_pos 64⟩
  exact ⟨hs, ofValue?_toValue_of_storable hs⟩

end Settings

end TurtleCurves
