import TurtleCurves.Proofs.Color.Assignment
import TurtleCurves.Proofs.Explorer.Growth
import TurtleCurves.Proofs.Grammar.RuleText
import TurtleCurves.Proofs.Preset.Table

namespace TurtleCurves

/-!
# Applying an editor that nobody has typed in

An editor is filled with the text of the grammar on show.  Reading it back trims the seed and keeps
the rules that a line can hold; the measures are not text, and the start is taken from the preset.

* `Explorer.presets_of_reachable` — the presets are those of the settings, always;
* `Explorer.present_eq_self_iff` — only showing what is shown already changes nothing;
* `Grammar.retyped`, `Grammar.Typeable` — a grammar as it comes back from its text, and the ones
  that come back unchanged;
* `Explorer.customize_ofGrammar` — what applying the editor of a preset on show does.
-/

namespace Grammar

variable {α : Type}

/-- The grammar as it comes back from the text in an editor. -/
def retyped (g : Grammar α) : Grammar α :=
  { g with seed := Text.trim g.seed, rules := Rules.parse g.rules.render }

/-- The text in an editor says the grammar. -/
def Typeable (g : Grammar α) : Prop := Text.Trimmed g.seed ∧ g.rules.Canonical

instance (g : Grammar α) : Decidable g.Typeable :=
  inferInstanceAs (Decidable (Text.Trimmed g.seed ∧ g.rules.Canonical))

theorem retyped_eq_self_iff {g : Grammar α} : g.retyped = g ↔ g.Typeable := by
  unfold Typeable
  rw [← Text.trim_eq_self_iff, ← Rules.parse_render_iff]
  constructor
  · intro h
    exact ⟨congrArg Grammar.seed h, congrArg Grammar.rules h⟩
  · rintro ⟨hseed, hrules⟩
    rw [retyped, hseed, hrules]

/-- Only measures are checked. -/
theorem check_retyped [Scalar α] (g : Grammar α) : g.retyped.check = g.check := rfl

end Grammar

namespace Explorer

variable {α : Type} [Scalar α]

/-! ### Presets -/

/-- The presets are those that the settings came with. -/
theorem presets_of_reachable {e : Explorer α} (he : Reachable e) :
    ∃ s : Settings α, e.presets = s.presetTable := by
  induction he with
  | start s width height => exact ⟨s, rfl⟩
  | @step e he op ih =>
    rw [e.presets_perform op]
    exact ih

variable {e : Explorer α} {key : String} {p : Preset α}

/-- The next grammar that is typed in will start where the loaded preset does. -/
theorem customOrigin_load (hp : e.presets.get? key = some p) :
    (e.load key).2.customOrigin = p.grammar.origin := by
  have hkey : p.key = key := (PresetTable.get?_eq_some_iff.mp hp).2
  have hfound : (e.load key).2.presetKey.bind (e.load key).2.presets.get? = some p := by
    rw [load_eq hp]
    show (some p.key).bind e.presets.get? = some p
    rw [hkey]
    exact hp
  rw [customOrigin, hfound]

/-! ### Showing a grammar again -/

/-- Showing what is shown already changes nothing. -/
theorem present_present (e : Explorer α) (g : Grammar α) :
    (e.present g).present g = e.present g := by
  -- The run is over, the view is fresh, and the letters are fitted.
  have hsymbols := e.symbols.refresh_refresh (Derivation.start g).alphabet e.palette.size
  unfold present refreshSymbols
  dsimp only
  rw [hsymbols]
  rfl

/-- With one grammar on show, showing another one changes the state. -/
theorem present_eq_self_iff (e : Explorer α) (g g' : Grammar α) :
    (e.present g).present g' = e.present g ↔ g' = g := by
  constructor
  · intro h
    have hderivation := congrArg Explorer.derivation h
    exact congrArg Derivation.grammar (Option.some.inj hderivation)
  · rintro rfl
    exact e.present_present g'

/-! ### The untouched editor -/

/-- Everything but the text is passed on as it is. -/
theorem customGrammar_ofGrammar (e : Explorer α) (g : Grammar α) :
    e.customGrammar (Editor.ofGrammar g) = { g.retyped with origin := e.customOrigin } := rfl

/-- Applying the editor of a preset on show that can be drawn shows the retyped grammar. -/
theorem customize_load (hp : e.presets.get? key = some p) (hcheck : p.grammar.check = .ok ()) :
    (e.load key).2.customize (Editor.ofGrammar p.grammar) =
      (.ok (), (e.load key).2.present p.grammar.retyped) := by
  have hgrammar :
      (e.load key).2.customGrammar (Editor.ofGrammar p.grammar) = p.grammar.retyped := by
    rw [customGrammar_ofGrammar, customOrigin_load hp]
    rfl
  unfold customize
  simp only [hgrammar, Grammar.check_retyped, hcheck]

/-- **An untouched editor.** Loading a preset of any table and applying the editor that is filled
with its grammar always succeeds, and shows the seed of the retyped grammar: its measures and its
start are those of the preset, its seed is trimmed, and its rules are those that are read back from
their text.  It is the grammar of the preset, and the whole state is as it was, exactly when the
seed has no white space at its ends and every rule can stand on a line. -/
theorem customize_ofGrammar {e : Explorer Float} (he : Reachable e) {key : String}
    (hkey : key ∈ e.presets.keys) :
    ∃ p d, e.presets.get? key = some p ∧
      let shown := (e.load key).2
      let applied := shown.customize (Editor.ofGrammar d.grammar)
      (e.load key).1 = .ok () ∧ shown.derivation = some d ∧ d.grammar = p.grammar ∧
        applied.1 = .ok () ∧ applied.2.derivation = some (Derivation.start p.grammar.retyped) ∧
        (p.grammar.retyped = p.grammar ↔ p.grammar.Typeable) ∧
        (applied.2 = shown ↔ p.grammar.Typeable) := by
  obtain ⟨p, hp⟩ := PresetTable.exists_get? hkey
  -- The table of a reachable explorer is that of its settings, whose presets have been checked.
  have hcheck : p.grammar.check = .ok () := by
    obtain ⟨s, hs⟩ := presets_of_reachable he
    rw [hs] at hp
    exact Settings.check_of_mem_presetTable (PresetTable.get?_eq_some_iff.mp hp).1
  refine ⟨p, Derivation.start p.grammar, hp, ?_⟩
  intro shown applied
  have happlied : applied = (.ok (), shown.present p.grammar.retyped) := customize_load hp hcheck
  have hshown : shown = { e with presetKey := some p.key : Explorer Float }.present p.grammar :=
    congrArg Prod.snd (load_eq hp)
  rw [happlied, load_eq hp, hshown]
  refine ⟨rfl, rfl, rfl, rfl, rfl, Grammar.retyped_eq_self_iff, ?_⟩
  rw [← Grammar.retyped_eq_self_iff]
  exact present_eq_self_iff ..

/-- A plant with two rules, loaded over a curve that was grown, is left as it is. -/
theorem customize_ofGrammar_bush :
    let e := (ofSettings (Settings.default : Settings Float) 8 8).performAll [.load "koch", .grow]
    Reachable e ∧ "bush" ∈ e.presets.keys ∧ ∃ d,
      (e.load "bush").2.derivation = some d ∧
        ((e.load "bush").2.customize (Editor.ofGrammar d.grammar)).1 = .ok () ∧
        ((e.load "bush").2.customize (Editor.ofGrammar d.grammar)).2 = (e.load "bush").2 := by
  intro e
  have he : Reachable e := (Reachable.start _ _ _).performAll _
  have hkey : "bush" ∈ e.presets.keys := by decide +kernel
  -- That seed and rules come back from being typed is settled by evaluation.
  have htypeable : (e.presets.get? "bush").all (fun p => decide p.grammar.Typeable) = true := by
    decide +kernel
  obtain ⟨p, d, hp, -, hd, -, hok, -, -, hsame⟩ := customize_ofGrammar he hkey
  rw [hp] at htypeable
  exact ⟨he, hkey, d, hd, hok, hsame.mpr (of_decide_eq_true htypeable)⟩

/-- The line of a rule that erases its letter is dropped when it is read back: the untouched editor
of a configured preset shows another grammar, and the next words differ. -/
theorem customize_drops_erasing_rule :
    let g : Grammar Float :=
      ⟨['F', 'X'], SortedMap.ofList [('X', [])], 90, 5, 0, Point.origin⟩
    let s : Settings Float := { Settings.default with presets := [⟨"erase", "Erase", g⟩] }
    let shown := ((ofSettings s 100 100).load "erase").2
    let applied := shown.customize (Editor.ofGrammar g)
    "erase" ∈ s.presetTable.keys ∧ shown.derivation.map Derivation.grammar = some g ∧
      applied.1 = .ok () ∧
      applied.2.derivation.map Derivation.grammar = some { g with rules := SortedMap.empty } ∧
      shown.grow.2.derivation.map Derivation.sentence = some ['F'] ∧
      applied.2.grow.2.derivation.map Derivation.sentence = some ['F', 'X'] := by
  intro g s shown applied
  decide +kernel

end Explorer

end TurtleCurves
