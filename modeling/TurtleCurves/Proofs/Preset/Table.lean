import TurtleCurves.Scalar.Binary64
import TurtleCurves.Settings.Basic

namespace TurtleCurves

/-!
# The presets of a table

* `PresetTable.get?_eq_some_iff` — a preset is found under its own key only;
* `Settings.mem_presetTable` — a table holds built-in presets and usable configured ones;
* `Settings.check_of_mem_presetTable` — so every preset of a table can be drawn.
-/

variable {α : Type} {p q : Preset α}

/-! ### Members -/

theorem Preset.mem_upsertInto {ps : List (Preset α)} (h : q ∈ p.upsertInto ps) :
    q = p ∨ q ∈ ps := by
  induction ps with
  | nil => exact .inl (List.mem_singleton.mp h)
  | cons first rest ih =>
    unfold upsertInto at h
    split at h
    · exact (List.mem_cons.mp h).imp_right (List.mem_cons_of_mem first)
    · rcases List.mem_cons.mp h with rfl | hlater
      · exact .inr List.mem_cons_self
      · exact (ih hlater).imp_right (List.mem_cons_of_mem first)

theorem PresetTable.mem_foldl_upsert {t : PresetTable α} {ps : List (Preset α)}
    (h : p ∈ (ps.foldl upsert t).presets) : p ∈ t.presets ∨ p ∈ ps := by
  induction ps generalizing t with
  | nil => exact .inl h
  | cons q rest ih =>
    rcases ih h with hhere | hlater
    · rcases Preset.mem_upsertInto hhere with rfl | hold
      · exact .inr List.mem_cons_self
      · exact .inl hold
    · exact .inr (List.mem_cons_of_mem q hlater)

/-- **Look-up.** Keys are pairwise different, so a preset is found under its own key only. -/
theorem PresetTable.get?_eq_some_iff {t : PresetTable α} {key : String} :
    t.get? key = some p ↔ p ∈ t.presets ∧ p.key = key := by
  obtain ⟨ps, hnodup⟩ := t
  show ps.find? (fun p => p.key == key) = some p ↔ p ∈ ps ∧ p.key = key
  constructor
  · intro h
    exact ⟨List.mem_of_find?_eq_some h, by simpa using List.find?_some h⟩
  · rintro ⟨hmem, rfl⟩
    -- The first preset of the key is the only one, as the keys are distinct.
    induction ps with
    | nil => cases hmem
    | cons first rest ih =>
      obtain ⟨hfirst, hrest⟩ := List.nodup_cons.mp hnodup
      rcases List.mem_cons.mp hmem with rfl | hlater
      · exact List.find?_cons_of_pos (beq_self_eq_true _)
      · have hne : first.key ≠ p.key := fun heq => hfirst (heq ▸ List.mem_map_of_mem hlater)
        rw [List.find?_cons_of_neg (by simpa using hne)]
        exact ih hrest hlater

theorem PresetTable.exists_get? {t : PresetTable α} {key : String} (h : key ∈ t.keys) :
    ∃ p, t.get? key = some p := by
  obtain ⟨p, hp, hkey⟩ := List.mem_map.mp h
  exact ⟨p, get?_eq_some_iff.mpr ⟨hp, hkey⟩⟩

/-- A look-up finds nothing exactly under the keys that no preset has. -/
theorem PresetTable.get?_eq_none_iff {t : PresetTable α} {key : String} :
    t.get? key = none ↔ key ∉ t.keys := by
  constructor
  · intro h hkey
    obtain ⟨p, hp⟩ := exists_get? hkey
    rw [hp] at h
    cases h
  · intro hkey
    cases hp : t.get? key with
    | none => rfl
    | some p =>
      obtain ⟨hmem, rfl⟩ := get?_eq_some_iff.mp hp
      exact absurd (List.mem_map_of_mem hmem) hkey

/-! ### What can be drawn -/

namespace Settings

/-- The table holds nothing else. -/
theorem mem_presetTable [Scalar α] {s : Settings α} (h : p ∈ s.presetTable.presets) :
    p ∈ Preset.builtin ∨ p ∈ s.usable := by
  refine (PresetTable.mem_foldl_upsert h).imp_left fun hbuiltin => ?_
  exact (PresetTable.mem_foldl_upsert hbuiltin).resolve_left List.not_mem_nil

/-- **Every preset of a table can be drawn.** -/
theorem check_of_mem_presetTable {s : Settings Float} {p : Preset Float}
    (h : p ∈ s.presetTable.presets) : p.grammar.check = .ok () := by
  have hbuiltin : ∀ p ∈ (Preset.builtin : List (Preset Float)), p.grammar.check.toBool = true := by
    decide +kernel
  have hcheck : p.grammar.check.toBool = true := by
    rcases mem_presetTable h with hp | hp
    · exact hbuiltin p hp
    · exact (List.mem_filter.mp hp).2
  cases hresult : p.grammar.check with
  | ok _ => rfl
  | error fault => rw [hresult] at hcheck; cases hcheck

end Settings

end TurtleCurves
