import TurtleCurves.Proofs.Explorer.SettingsBlocks

namespace TurtleCurves.Explorer

/-!
# What the settings text says

* `Explorer.Unbroken` — neither the grammar on show nor a letter with a colour has a line break;
* `Explorer.pictureLines` — the lines below the time stamp;
* `pictureLines_of_unlines` — the text determines these lines;
* `frame_of_settingsText` — and with them the frame.
-/

/-- Neither the grammar on show nor the letters with a colour have line breaks. -/
def Unbroken {α : Type} (e : Explorer α) : Prop :=
  (∀ d ∈ e.derivation, d.grammar.Unbroken) ∧ Text.Unbroken e.symbols.keys

instance {α : Type} (e : Explorer α) : Decidable e.Unbroken := inferInstanceAs (Decidable (_ ∧ _))

variable {α : Type} [Scalar α]

/-! ### Lines below the time stamp -/

/-- The lines below the time stamp. -/
def pictureLines (e : Explorer α) (d : Derivation α) : List (List Char) :=
  grammarLines d.grammar ++ [] :: (e.colorLines ++ [] :: e.stateLines d)

/-- The text of the settings is the time stamp and the lines below it. -/
theorem unlines_settingsLines (e : Explorer α) (d : Derivation α) (time : String) :
    Text.unlines (e.settingsLines d time) =
      Text.unlines [entry "L-System Settings" "", entry "==================" "",
        entry "Exported:         " time, []] ++ '\n' :: Text.unlines (e.pictureLines d) := by
  have hlines : e.settingsLines d time =
      [entry "L-System Settings" "", entry "==================" "",
        entry "Exported:         " time, []] ++ e.pictureLines d := by
    simp only [settingsLines, pictureLines, List.append_assoc, List.cons_append, List.nil_append]
  rw [hlines]
  exact Text.unlines_append (List.cons_ne_nil _ _) (List.cons_ne_nil _ _)

variable [Scalar.Legible α]

theorem feed_notMem_pictureLines {e : Explorer α} {d : Derivation α} (hgrammar : d.grammar.Unbroken)
    (hsymbols : Text.Unbroken e.symbols.keys) : ∀ l ∈ e.pictureLines d, '\n' ∉ l := by
  simp only [pictureLines, List.forall_mem_append, List.forall_mem_cons]
  exact ⟨feed_notMem_grammarLines hgrammar, List.not_mem_nil, feed_notMem_colorLines hsymbols,
    List.not_mem_nil, feed_notMem_stateLines e d⟩

/-- **The text determines the lines** below its time stamp, whatever the time stamp is. -/
theorem pictureLines_of_unlines {e e' : Explorer α} {d d' : Derivation α} {time : String}
    (hgrammar : d.grammar.Unbroken) (hsymbols : Text.Unbroken e.symbols.keys)
    (hgrammar' : d'.grammar.Unbroken) (hsymbols' : Text.Unbroken e'.symbols.keys)
    (h : Text.unlines (e.settingsLines d time) = Text.unlines (e'.settingsLines d' time)) :
    e.pictureLines d = e'.pictureLines d' := by
  rw [unlines_settingsLines, unlines_settingsLines] at h
  have hbelow := (List.cons.inj (List.append_cancel_left h)).2
  exact Text.unlines_injective (List.cons_ne_nil _ _) (List.cons_ne_nil _ _)
    (feed_notMem_pictureLines hgrammar hsymbols) (feed_notMem_pictureLines hgrammar' hsymbols')
    hbelow

/-! ### The picture -/

/-- **The settings text determines the picture.** Two explorers that show one canvas at one place
and whose settings read the same at one time draw the same frame, however each was reached.  The
text has the count of steps, which is the number of steps as far as they can be counted. -/
theorem frame_of_settingsText {e e' : Explorer Float} (he : Reached e) (he' : Reached e')
    (hplain : e.Unbroken) (hplain' : e'.Unbroken) (hview : Frame.SameView e.viewport e'.viewport)
    {time : String} (h : e.settingsText time = e'.settingsText time) : e.frame = e'.frame := by
  cases hd : e.derivation with
  | none =>
    cases hd' : e'.derivation with
    | none => rw [frame, frame, hd, hd']
    | some d' =>
      rw [settingsText, settingsText, hd, hd'] at h
      cases h
  | some d =>
    cases hd' : e'.derivation with
    | none =>
      rw [settingsText, settingsText, hd, hd'] at h
      cases h
    | some d' =>
      rw [settingsText, settingsText, hd, hd'] at h
      -- The lines are read block by block from the top, each block handing on what follows it.
      have hgrammar := hplain.1 d hd
      have hgrammar' := hplain'.1 d' hd'
      have hlines := pictureLines_of_unlines hgrammar hplain.2 hgrammar' hplain'.2
        (Except.ok.inj h)
      obtain ⟨hsame, hlines⟩ := grammar_of_lines hgrammar hgrammar' hlines
      obtain ⟨hcolors, hbackground, hlines⟩ := colors_of_lines (List.cons.inj hlines).2
      obtain ⟨hwidth, hiteration⟩ := state_of_lines (List.cons.inj hlines).2
      rw [frame, frame, hd, hd', hbackground, hwidth]
      exact Frame.draw_eq_of_coherent (coherent_of_reachable he.reachable hd)
        (coherent_of_reachable he'.reachable hd') hsame hiteration hview hcolors _ _

/-- Two palettes in which two stops were made one colour, and a letter that names the one here and
the other there. -/
theorem frame_of_settingsText_of_other_stop :
    let start := ofSettings (Settings.default : Settings Float) 100 100
    let ops : List (Operation Float) :=
      [.load "koch", .setMode .perSymbol, .setColor 1 Rgb.white, .setColor 2 Rgb.white,
        .setSymbol 'F' 1, .grow]
    let ops' : List (Operation Float) :=
      [.load "koch", .grow, .setMode .perSymbol, .setColor 1 Rgb.white, .setColor 2 Rgb.white,
        .toggle 0, .setSymbol 'F' 2, .survey]
    let e := start.performAll ops
    let e' := start.performAll ops'
    Reached e ∧ Reached e' ∧ e.Unbroken ∧ e'.Unbroken ∧
      Frame.SameView e.viewport e'.viewport ∧ e.symbols ≠ e'.symbols ∧
      e.settingsText "now" = e'.settingsText "now" ∧ e.frame = e'.frame := by
  intro start ops ops' e e'
  have hstart : Reached start := .start _ _ _
  have hrun : start.performAll? ops = some e := rfl
  have hrun' : start.performAll? ops' = some e' := rfl
  have he : Reached e := hstart.performAll? hrun
  have he' : Reached e' := hstart.performAll? hrun'
  have hplain : e.Unbroken := by decide +kernel
  have hplain' : e'.Unbroken := by decide +kernel
  have hview : Frame.SameView e.viewport e'.viewport := ⟨rfl, rfl, rfl, rfl⟩
  -- The letter has another stop, but both stops have the same colour.
  have hsymbols : e.symbols ≠ e'.symbols := by decide +kernel
  have htext : e.settingsText "now" = e'.settingsText "now" := by rfl
  exact ⟨he, he', hplain, hplain', hview, hsymbols, htext,
    frame_of_settingsText he he' hplain hplain' hview htext⟩

end TurtleCurves.Explorer
