import TurtleCurves.Proofs.Explorer.Failures
import TurtleCurves.Proofs.Explorer.Shown
import TurtleCurves.Proofs.Preset.Merging

namespace TurtleCurves.Explorer

/-!
# What can be selected and shown

Whatever is on show was checked: presets when their table was made, and grammars that are typed in
when they are applied.  Whatever is selected is in the table.

* `Explorer.Sound` — the grammar on show passes its check, and the selected preset exists;
* `Explorer.Sound.load`, `Explorer.Sound.customize`, `Explorer.Sound.perform` — every operation
  keeps that, as long as the presets pass theirs;
* `Explorer.sound_of_presetTable` — the table of any settings, and what its explorers show.
-/

variable {α : Type} [Scalar α]

/-! ### The invariant -/

/-- What is on show can be drawn, and what is selected exists. -/
structure Sound (e : Explorer α) : Prop where
  shown : ∀ d, e.derivation = some d → d.grammar.check = .ok ()
  selected : ∀ key, e.presetKey = some key → key ∈ e.presets.keys

theorem sound_ofSettings (s : Settings α) (width height : α) : Sound (ofSettings s width height) :=
  ⟨nofun, nofun⟩

/-- A preset was checked with its table, and its key is the one asked for. -/
theorem Sound.load {e : Explorer α} (h : Sound e)
    (hpresets : ∀ p ∈ e.presets.presets, p.grammar.check = .ok ()) (key : String) :
    Sound (e.load key).2 := by
  by_cases hkey : key ∈ e.presets.keys
  · obtain ⟨p, hp⟩ := PresetTable.exists_get? hkey
    have hmem : p ∈ e.presets.presets := (PresetTable.get?_eq_some_iff.mp hp).1
    rw [load_eq hp]
    refine ⟨fun d hd => ?_, fun key hkey => ?_⟩
    · obtain rfl := Option.some.inj hd
      exact hpresets p hmem
    · obtain rfl := Option.some.inj hkey
      exact List.mem_map_of_mem hmem
  · rw [load_of_notMem hkey]
    exact h

/-- A grammar that is typed in is checked when it is applied; the selection stays. -/
theorem Sound.customize {e : Explorer α} (h : Sound e) (editor : Editor α) :
    Sound (e.customize editor).2 := by
  cases hcheck : (e.customGrammar editor).check with
  | error fault =>
    rw [customize_of_error hcheck]
    exact h
  | ok _ =>
    rw [customize_eq hcheck]
    refine ⟨fun d hd => ?_, h.selected⟩
    obtain rfl := Option.some.inj hd
    exact hcheck

/-- **One operation** keeps what is on show drawable and what is selected in the table. -/
theorem Sound.perform {e : Explorer α} (h : Sound e)
    (hpresets : ∀ p ∈ e.presets.presets, p.grammar.check = .ok ()) (op : Operation α) :
    Sound (e.perform op) := by
  by_cases hop : op.asksGrammar = true
  · cases op with
    | load key => exact h.load hpresets key
    | customize editor => exact h.customize editor
    | _ => cases hop
  · -- Growing, rewinding and measuring keep the grammar, and nothing else touches the word.
    have hother : op.asksGrammar = false := Bool.eq_false_iff.mpr hop
    have hgrammar : (e.perform op).derivation.map Derivation.grammar =
        e.derivation.map Derivation.grammar :=
      map_derivation_of_effect (fun _ => rfl) (fun _ => rfl) (fun f hf d => hf.grammar d)
        (e.effect_perform op) hother
    refine ⟨fun d hd => ?_, fun key hkey => ?_⟩
    · rw [hd, Option.map_some] at hgrammar
      obtain ⟨d', hd', hsame⟩ := Option.map_eq_some_iff.mp hgrammar.symm
      rw [← hsame]
      exact h.shown d' hd'
    · rw [presetKey_perform e hother] at hkey
      rw [presets_perform]
      exact h.selected key hkey

/-- **Every history.** The presets stay the same, so that they pass their check at every step. -/
theorem Sound.performAll {e : Explorer α} (h : Sound e)
    (hpresets : ∀ p ∈ e.presets.presets, p.grammar.check = .ok ()) (ops : List (Operation α)) :
    Sound (e.performAll ops) := by
  induction ops generalizing e with
  | nil => exact h
  | cons op ops ih =>
    refine ih (h.perform hpresets op) ?_
    rw [presets_perform]
    exact hpresets

/-! ### The table of any settings -/

/-- **Merged presets.** Whatever presets are configured, with whatever keys and measures: the keys
of the table are pairwise different, first the built-in ones in their order and then the new ones of
the usable presets, in the order in which they come first; under a key there is the last usable
preset with it, or else the built-in one; and every preset of the table can be drawn.  So whatever
happens to an explorer with these settings, what it shows can be drawn and the preset that it has
selected is in the table. -/
theorem sound_of_presetTable (s : Settings Float) :
    let builtin : List (Preset Float) := Preset.builtin
    let usable := s.presets.filter fun p => p.grammar.check = .ok ()
    let t := s.presetTable
    t.keys.Nodup ∧
      t.keys = builtin.map Preset.key ++
        ((usable.map Preset.key).filter (· ∉ builtin.map Preset.key)).eraseDups ∧
      (∀ key, t.get? key =
        (usable.filter (·.key = key)).getLast?.or (builtin.find? (·.key = key))) ∧
      (∀ p ∈ t.presets, p.grammar.check = .ok ()) ∧
      ∀ (width height : Float) (ops : List (Operation Float)),
        let e := (ofSettings s width height).performAll ops
        e.presets = t ∧ (∀ d, e.derivation = some d → d.grammar.check = .ok ()) ∧
          ∀ key, e.presetKey = some key → key ∈ t.keys := by
  intro builtin usable t
  -- The settings sort out the presets by matching on the check, the statement by comparing it.
  have husable : s.usable = usable := by
    refine List.filter_congr fun p _ => ?_
    cases hcheck : p.grammar.check with
    | ok _ => rfl
    | error fault => rfl
  have hchecked : ∀ p ∈ t.presets, p.grammar.check = .ok () :=
    fun p hp => Settings.check_of_mem_presetTable hp
  refine ⟨t.nodup, husable ▸ s.keys_presetTable, fun key => husable ▸ s.get?_presetTable key,
    hchecked, fun width height ops => ?_⟩
  intro e
  have hpresets : e.presets = t := presets_performAll _ ops
  have hsound : Sound e := (sound_ofSettings s width height).performAll hchecked ops
  exact ⟨hpresets, hsound.shown, hpresets ▸ hsound.selected⟩

/-- Six configured presets with three keys, two of them without a stroke length.  One of these would
have been the first of its key and the other the last, and neither counts. -/
theorem sound_of_presetTable_wave :
    let g (length : Float) : Grammar Float :=
      ⟨['F'], SortedMap.ofList [('F', ['F', '+', 'F'])], 90, length, 0, Point.origin⟩
    let s : Settings Float :=
      { Settings.default with
        presets := [⟨"ring", "Ring", g 0⟩, ⟨"wave", "Wave", g 5⟩, ⟨"koch", "Square", g 6⟩,
          ⟨"ring", "Ring", g 7⟩, ⟨"koch", "Point", g 0⟩, ⟨"wave", "Tide", g 8⟩] }
    let t := s.presetTable
    let e := (ofSettings s 8 8).performAll [.load "ring", .load "wave", .grow]
    t.keys.Nodup ∧
      t.keys = (Preset.builtin : List (Preset Float)).map Preset.key ++ ["wave", "ring"] ∧
      t.get? "wave" = some ⟨"wave", "Tide", g 8⟩ ∧ t.get? "koch" = some ⟨"koch", "Square", g 6⟩ ∧
      (t.get? "moore").map Preset.name = some "Moore Curve" ∧ t.get? "tide" = none ∧
      (∀ p ∈ t.presets, p.grammar.check = .ok ()) ∧
      (∃ d, e.derivation = some d ∧ d.grammar.check = .ok ()) ∧
      e.presetKey = some "wave" ∧ "wave" ∈ t.keys := by
  intro g s t e
  obtain ⟨hnodup, hkeys, hget, hchecked, hrun⟩ := sound_of_presetTable s
  obtain ⟨-, hshown, hselected⟩ := hrun 8 8 [.load "ring", .load "wave", .grow]
  have hsome : e.derivation.isSome = true := by decide +kernel
  obtain ⟨d, hd⟩ := Option.isSome_iff_exists.mp hsome
  have hkey : e.presetKey = some "wave" := by decide +kernel
  refine ⟨hnodup, hkeys.trans ?_, (hget _).trans ?_, (hget _).trans ?_, ?_, (hget _).trans ?_,
    hchecked, ⟨d, hd, hshown d hd⟩, hkey, hselected _ hkey⟩
  · decide +kernel
  · decide +kernel
  · decide +kernel
  · show (s.presetTable.get? "moore").map Preset.name = some "Moore Curve"
    rw [hget]
    decide +kernel
  · decide +kernel

end TurtleCurves.Explorer
