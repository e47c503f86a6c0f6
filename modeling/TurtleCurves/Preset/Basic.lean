import TurtleCurves.Grammar.Basic

namespace TurtleCurves

/-!
# Presets

* `Preset` — a grammar with a key and a name;
* `PresetTable` — presets with pairwise different keys, in the order in which the keys came;
* `PresetTable.upsert` — replaces the preset of the same key, or appends.
-/

/-- A grammar with a key to find it by and a name to show. -/
structure Preset (α : Type) where
  key : String
  name : String
  grammar : Grammar α
  deriving DecidableEq

/-- Puts a preset in the place of the one with its key, or at the end. -/
def Preset.upsertInto {α : Type} (p : Preset α) : List (Preset α) → List (Preset α)
  | [] => [p]
  | q :: rest => if q.key = p.key then p :: rest else q :: p.upsertInto rest

/-- The keys of the list stay; a new one goes to the end. -/
theorem Preset.map_key_upsertInto {α : Type} (p : Preset α) (ps : List (Preset α)) :
    (p.upsertInto ps).map Preset.key =
      if p.key ∈ ps.map Preset.key then ps.map Preset.key
      else ps.map Preset.key ++ [p.key] := by
  induction ps with
  | nil => simp [upsertInto]
  | cons q rest ih =>
    unfold upsertInto
    by_cases h : q.key = p.key
    · simp [h]
    · have h' : p.key ≠ q.key := fun e => h e.symm
      simp only [h, if_false, List.map_cons, ih, List.mem_cons, h', false_or]
      split <;> simp

/-- Presets with pairwise different keys. -/
structure PresetTable (α : Type) where
  presets : List (Preset α)
  nodup : (presets.map Preset.key).Nodup

namespace PresetTable

variable {α : Type}

/-- The table without presets. -/
def empty : PresetTable α := ⟨[], List.nodup_nil⟩

/-- Replaces the preset of the same key, or appends. -/
def upsert (t : PresetTable α) (p : Preset α) : PresetTable α :=
  ⟨p.upsertInto t.presets, by
    rw [Preset.map_key_upsertInto]
    split
    · exact t.nodup
    · next h =>
      refine List.nodup_append.2 ⟨t.nodup, by simp, ?_⟩
      intro a ha b hb e
      simp only [List.mem_singleton] at hb
      exact h (hb ▸ e ▸ ha)⟩

/-- The presets of a list put in one after the other. -/
def ofList (ps : List (Preset α)) : PresetTable α := ps.foldl upsert empty

/-- The preset of a key. -/
def get? (t : PresetTable α) (key : String) : Option (Preset α) :=
  t.presets.find? fun p => p.key == key

/-- The first preset. -/
def first? (t : PresetTable α) : Option (Preset α) := t.presets.head?

/-- The keys in order. -/
def keys (t : PresetTable α) : List String := t.presets.map Preset.key

/-- The number of presets. -/
def size (t : PresetTable α) : Nat := t.presets.length

end PresetTable

end TurtleCurves
