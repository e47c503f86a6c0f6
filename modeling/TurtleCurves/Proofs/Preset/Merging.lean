import TurtleCurves.Proofs.Preset.Table

namespace TurtleCurves

/-!
# Presets put into a table

A preset takes the place of the one with its key, so that a key stays where it came first and its
preset is the one that came last.

* `PresetTable.get?_foldl_upsert` — look-up after presets were put in one after the other: the last
  one with the key, and the one of the table if there is none;
* `PresetTable.keys_foldl_upsert` — the keys then: those of the table, and behind them the new ones
  in the order in which they came first;
* `PresetTable.presets_ofList` — presets with different keys just stay in a row;
* `Settings.keys_presetTable`, `Settings.get?_presetTable` — the same of the built-in presets with
  the configured ones put in.
-/

variable {α : Type} {p : Preset α} {ps : List (Preset α)} {t : PresetTable α}

/-! ### One preset -/

namespace Preset

/-- A preset is found under its key from then on, and nothing changes under the other keys. -/
theorem find?_upsertInto (p : Preset α) (ps : List (Preset α)) (key : String) :
    (p.upsertInto ps).find? (·.key == key) =
      if p.key = key then some p else ps.find? (·.key == key) := by
  induction ps with
  | nil =>
    unfold upsertInto
    by_cases h : p.key = key <;> simp [h]
  | cons q rest ih =>
    unfold upsertInto
    by_cases hq : q.key = p.key
    · -- The preset takes the place of `q`, which has the same key.
      by_cases h : p.key = key <;> simp [hq, h]
    · rw [if_neg hq]
      by_cases h : p.key = key
      · have hqkey : q.key ≠ key := h ▸ hq
        simp [hqkey, ih, h]
      · by_cases hqkey : q.key = key
        · simp [hqkey, h]
        · simp [hqkey, ih, h]

/-- A preset with a new key goes to the end. -/
theorem upsertInto_of_notMem (h : p.key ∉ ps.map Preset.key) : p.upsertInto ps = ps ++ [p] := by
  induction ps with
  | nil => rfl
  | cons q rest ih =>
    rw [List.map_cons, List.mem_cons, not_or] at h
    rw [upsertInto, if_neg (Ne.symm h.1), ih h.2]
    rfl

end Preset

namespace PresetTable

/-- Look-up after one preset was put in. -/
theorem get?_upsert (t : PresetTable α) (p : Preset α) (key : String) :
    (t.upsert p).get? key = if p.key = key then some p else t.get? key :=
  p.find?_upsertInto t.presets key

/-- The keys after that: a new one comes last. -/
theorem keys_upsert (t : PresetTable α) (p : Preset α) :
    (t.upsert p).keys = if p.key ∈ t.keys then t.keys else t.keys ++ [p.key] :=
  p.map_key_upsertInto t.presets

/-! ### One after the other -/

/-- **Look-up.** The last preset with the key, or the one of the table. -/
theorem get?_foldl_upsert (t : PresetTable α) (ps : List (Preset α)) (key : String) :
    (ps.foldl upsert t).get? key = ((ps.filter (·.key = key)).getLast?).or (t.get? key) := by
  induction ps generalizing t with
  | nil => simp
  | cons p rest ih =>
    rw [List.foldl_cons, ih, get?_upsert]
    by_cases h : p.key = key
    · -- It counts when no later one has the key.
      rw [if_pos h, List.filter_cons_of_pos (by simpa using h), List.getLast?_cons]
      cases (rest.filter (·.key = key)).getLast? <;> rfl
    · rw [if_neg h, List.filter_cons_of_neg (by simpa using h)]

/-- **Keys.** Those of the table, and then the new ones in the order in which they came first. -/
theorem keys_foldl_upsert (t : PresetTable α) (ps : List (Preset α)) :
    (ps.foldl upsert t).keys = t.keys ++ ((ps.map Preset.key).filter (· ∉ t.keys)).eraseDups := by
  induction ps generalizing t with
  | nil => simp
  | cons p rest ih =>
    rw [List.foldl_cons, ih, keys_upsert, List.map_cons]
    by_cases h : p.key ∈ t.keys
    · rw [if_pos h, List.filter_cons_of_neg (by simpa using h)]
    · -- The first of the new keys: it comes next, and not again.
      have hnext : (rest.map Preset.key).filter (· ∉ t.keys ++ [p.key]) =
          ((rest.map Preset.key).filter (· ∉ t.keys)).filter fun key => !(key == p.key) := by
        rw [List.filter_filter]
        refine List.filter_congr fun key _ => ?_
        by_cases hkey : key = p.key <;> simp [hkey]
      rw [if_neg h, List.filter_cons_of_pos (by simpa using h), List.eraseDups_cons, hnext,
        List.append_assoc]
      rfl

/-- Presets with different keys stay in a row. -/
theorem presets_foldl_upsert (h : ((t.presets ++ ps).map Preset.key).Nodup) :
    (ps.foldl upsert t).presets = t.presets ++ ps := by
  induction ps generalizing t with
  | nil => simp
  | cons p rest ih =>
    -- A key not in the table is appended; the order of `ps` is kept for that reason.
    have hnew : p.key ∉ t.presets.map Preset.key := by
      intro hmem
      rw [List.map_append, List.nodup_append] at h
      exact h.2.2 p.key hmem p.key List.mem_cons_self rfl
    have hone : (t.upsert p).presets = t.presets ++ [p] := Preset.upsertInto_of_notMem hnew
    rw [List.foldl_cons, ih, hone, List.append_assoc]
    · rfl
    · rw [hone, List.append_assoc]
      exact h

/-- A table of presets with different keys lists them as they were given. -/
theorem presets_ofList (h : (ps.map Preset.key).Nodup) : (ofList ps).presets = ps :=
  presets_foldl_upsert h

end PresetTable

/-! ### Configured presets -/

section Configured

variable [Scalar α]

/-- No two of the built-in presets have one key. -/
theorem Preset.nodup_builtin : ((builtin : List (Preset α)).map key).Nodup := by
  simp [builtin, classic]

/-- So their table lists all of them. -/
theorem PresetTable.presets_builtin : (builtin : PresetTable α).presets = Preset.builtin :=
  presets_ofList Preset.nodup_builtin

namespace Settings

/-- **The keys of a table.** The built-in ones, and behind them the new ones of usable presets. -/
theorem keys_presetTable (s : Settings α) :
    s.presetTable.keys =
      (Preset.builtin : List (Preset α)).map Preset.key ++
        ((s.usable.map Preset.key).filter
          (· ∉ (Preset.builtin : List (Preset α)).map Preset.key)).eraseDups := by
  rw [presetTable, PresetTable.keys_foldl_upsert, PresetTable.keys, PresetTable.presets_builtin]

/-- **The presets of a table.** Under each key the last usable one, or the built-in one. -/
theorem get?_presetTable (s : Settings α) (key : String) :
    s.presetTable.get? key =
      (s.usable.filter (·.key = key)).getLast?.or (Preset.builtin.find? (·.key = key)) := by
  rw [presetTable, PresetTable.get?_foldl_upsert, PresetTable.get?, PresetTable.presets_builtin]
  rfl

end Settings

end Configured

end TurtleCurves
