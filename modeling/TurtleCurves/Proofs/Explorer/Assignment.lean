import TurtleCurves.Proofs.Color.Assignment
import TurtleCurves.Proofs.Explorer.Coherence
import TurtleCurves.Proofs.Frame.Colors
import TurtleCurves.Proofs.Grammar.Alphabet
import TurtleCurves.Scalar.Binary64

namespace TurtleCurves

/-!
# Every letter that draws has a colour

Colours of letters are fitted when a grammar is shown, and not again: growing brings no new letter,
and neither choosing stops nor editing the palette takes one away.

* `Explorer.fits_of_writes` — an operation keeps the colours of letters fitting the alphabet on show
  and the palette;
* `Explorer.fits_of_reachable` — so they always do;
* `Explorer.lineColors_frame` — and a frame that is coloured by letters never lacks a colour;
* `Explorer.assigned_of_reachable` — letters, stops and lines of every explorer.
-/

variable {α : Type} [Scalar α]

namespace Explorer

/-! ### Letters and palette stops -/

/-- The letters that have to have a colour; none if nothing is on show. -/
def shownAlphabet (e : Explorer α) : List Char :=
  (e.derivation.map Derivation.alphabet).getD []

/-- What is grown, rewound or measured keeps its alphabet. -/
theorem shownAlphabet_of_effect {e e' : Explorer α} {op : Operation α} (h : Effect e op e')
    (hop : op.asksGrammar = false) : e'.shownAlphabet = e.shownAlphabet := by
  have hsame : e'.derivation.map Derivation.alphabet = e.derivation.map Derivation.alphabet :=
    map_derivation_of_effect (fun _ => rfl) (fun _ => rfl) (fun _ hf => hf.alphabet) h hop
  rw [shownAlphabet, shownAlphabet, hsame]

/-- **One operation.** Another grammar has its letters fitted; a choice is refused unless the
palette has the stop; and nothing else touches the letters, their stops or the number of stops. -/
theorem fits_of_writes {e e' : Explorer α} {op : Operation α} (hwrites : Writes e op e')
    (heffect : Effect e op e') (h : e.symbols.Fits e.shownAlphabet e.palette.size) :
    e'.symbols.Fits e'.shownAlphabet e'.palette.size := by
  cases hwrites with
  | nothing => exact h
  | scene hop shown scheduler view =>
    rw [shownAlphabet_of_effect heffect hop]
    exact h
  -- A new alphabet fills in the letters that have no entry; the entries that stand stay in range.
  | presented hop key g => exact h.refresh e.palette.size_pos _
  | palette hsize =>
    rw [hsize]
    exact h
  | symbol c hi => exact h.insert hi c
  | style mode axis px background => exact h
  | pace pace => exact h

/-- **Invariant.** The colours of letters fit the alphabet on show and the palette. -/
theorem fits_of_reachable {e : Explorer α} (he : Reachable e) :
    e.symbols.Fits e.shownAlphabet e.palette.size := by
  induction he with
  | start s width height => exact .empty s.palette.size
  | @step e he op ih => exact fits_of_writes (e.writes_perform op) (e.effect_perform op) ih

/-! ### The colours of lines -/

/-- With a colour for each letter, a line has the stop of the letter that draws it. -/
theorem lineColors_frame {e : Explorer α} {d : Derivation α} (hd : e.derivation = some d)
    (hmode : e.colorMode = .perSymbol)
    (hfits : ∀ c ∈ d.sentence.filter Word.isStroke,
      ∃ i, e.symbols.get? c = some i ∧ i < e.palette.size) (prior : Rgb) :
    (Call.lineColors prior e.frame).map some =
      (d.sentence.filter Word.isStroke).map fun c =>
        (e.symbols.get? c).bind fun i => e.palette.colors[i]? := by
  -- Under this mode the colour of a stroke depends on its symbol alone.
  have hresolve : ∀ s : Stroke α,
      (Frame.informed d e.colorSource).resolve (Frame.contextOf d.segmentCount s) =
        e.palette.get ((e.symbols.get? s.symbol).getD 0) := by
    intro s
    rw [ColorSource.resolve]
    simp only [Frame.informed, colorSource, hmode]
    rfl
  have hframe : e.frame = Frame.draw d e.viewport e.colorSource e.background e.strokeWidth := by
    rw [frame, hd]
  rw [hframe, Frame.lineColors_draw_eq_map, ← Walk.symbols_strokes d.grammar.gait, List.map_map,
    List.map_map]
  refine List.map_congr_left fun s hs => ?_
  have hmem : s.symbol ∈ d.sentence.filter Word.isStroke := by
    rw [← Walk.symbols_strokes d.grammar.gait]
    exact List.mem_map_of_mem hs
  -- Every letter drawn has an entry, so the default of `getD` is never taken.
  obtain ⟨i, hget, hi⟩ := hfits s.symbol hmem
  simp only [Function.comp_apply, hresolve, hget, Option.getD_some, Option.bind_some,
    e.palette.getElem?_colors hi]

/-- **Letters and their colours.** Whatever was loaded, typed in, grown and recoloured before: the
alphabet of the grammar on show lists capital letters in order, it has every letter of the word
that draws, each of its letters is assigned a palette stop, no letter is assigned a stop that the
palette does not have, and in a frame that is coloured by letters every line has the stop that its
letter is assigned. -/
theorem assigned_of_reachable {e : Explorer α} (he : Reachable e) {d : Derivation α}
    (hd : e.derivation = some d) :
    d.alphabet.Pairwise (· < ·) ∧ (∀ c ∈ d.alphabet, 'A' ≤ c ∧ c ≤ 'Z') ∧
      (∀ c ∈ d.sentence, 'A' ≤ c → c ≤ 'Z' → c ∈ d.alphabet) ∧
      (∀ c ∈ d.alphabet, c ∈ e.symbols.keys) ∧
      (∀ entry ∈ e.symbols.entries, entry.2 < e.palette.size) ∧
      (e.colorMode = .perSymbol → ∀ prior,
        (Call.lineColors prior e.frame).map some =
          (d.sentence.filter Word.isStroke).map fun c =>
            (e.symbols.get? c).bind fun i => e.palette.colors[i]?) := by
  have hcoherent := coherent_of_reachable he hd
  have halphabet : d.alphabet = d.grammar.alphabet := hcoherent.grown.alphabet
  -- The alphabet is read off the seed and the rules once; no rewriting brings a new letter.
  have hcovers : d.grammar.Covers d.sentence := by
    rw [hcoherent.sentence_eq]
    exact d.grammar.covers_derive d.iteration
  have hfits : e.symbols.Fits d.alphabet e.palette.size := by
    have hshown : e.shownAlphabet = d.alphabet := by rw [shownAlphabet, hd]; rfl
    rw [← hshown]
    exact fits_of_reachable he
  refine ⟨?_, ?_, ?_, hfits.assigned, hfits.lt_stops, ?_⟩
  · rw [halphabet]
    exact Word.pairwise_letters _
  · intro c hc
    rw [halphabet, Grammar.mem_alphabet] at hc
    exact Word.isStroke_iff.mp hc.1
  · intro c hc hlo hhi
    rw [halphabet]
    exact hcovers c hc (Word.isStroke_iff.mpr ⟨hlo, hhi⟩)
  · intro hmode prior
    refine lineColors_frame hd hmode (fun c hc => ?_) prior
    obtain ⟨hword, hdraws⟩ := List.mem_filter.mp hc
    refine hfits.get?_eq_some ?_
    rw [halphabet]
    exact hcovers c hword hdraws

/-- A curve grown once, after another curve whose letters overlap with its own, a choice, and two
stops taken from a link. -/
theorem assigned_of_reachable_dragon :
    let e := (ofSettings (Settings.default : Settings Float) 8 8).performAll
      [.load "moore", .setSymbol 'F' 4, .load "dragon", .grow,
        .importLink "264653-2a9d8f".toList, .setMode .perSymbol]
    Reachable e ∧ ∃ d, e.derivation = some d ∧ d.alphabet = ['F', 'X', 'Y'] ∧
      (∀ c ∈ d.alphabet, c ∈ e.symbols.keys) ∧
      (∀ entry ∈ e.symbols.entries, entry.2 < e.palette.size) ∧
      (Call.lineColors Rgb.black e.frame).map some =
        (d.sentence.filter Word.isStroke).map fun c =>
          (e.symbols.get? c).bind fun i => e.palette.colors[i]? := by
  intro e
  have he : Reachable e := (Reachable.start _ _ _).performAll _
  have halphabet : e.derivation.map Derivation.alphabet = some ['F', 'X', 'Y'] := by
    decide +kernel
  obtain ⟨d, hd, hd'⟩ := Option.map_eq_some_iff.mp halphabet
  obtain ⟨-, -, -, hassigned, hexists, hlines⟩ := assigned_of_reachable he hd
  exact ⟨he, d, hd, hd', hassigned, hexists, hlines rfl Rgb.black⟩

end Explorer

end TurtleCurves
