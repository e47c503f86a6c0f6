import TurtleCurves.Proofs.Explorer.Shown

namespace TurtleCurves

/-!
# Derivations are what they say

* `Derivation.Coherent d` — the word of `d` is the seed of its grammar, grown as often as `d`
  counts, and what was measured is true of that word;
* `Derivation.Coherent.grow`, `.rewind`, `.measures` — the operations on derivations keep that;
* `Explorer.coherent_of_reachable` — every derivation on show is coherent;
* `Frame.draw_eq_of_coherent` — so that its frame depends on the grammar and the count only.
-/

variable {α : Type} [Scalar α]

namespace Derivation

/-- The word is the seed grown `d.iteration` times, and the measurements are true of it. -/
structure Coherent (d : Derivation α) : Prop where
  grown : (start d.grammar).Grown d.iteration d
  segments : d.segmentCount = d.sentence.strokes
  bounds : d.bounds = Walk.bounds d.grammar.gait d.sentence

namespace Coherent

theorem start (g : Grammar α) : (start g).Coherent := ⟨.refl _, rfl, rfl⟩

theorem grow {d : Derivation α} (h : d.Coherent) : d.grow.Coherent := ⟨h.grown.grow, rfl, rfl⟩

theorem rewind {d : Derivation α} (h : d.Coherent) : d.rewind.Coherent :=
  ⟨⟨rfl, h.grown.alphabet, rfl, rfl⟩, rfl, rfl⟩

/-- Measurements note what is true. -/
theorem measures {d : Derivation α} (h : d.Coherent) {f : Derivation α → Derivation α}
    (hf : Measures f) : (f d).Coherent := by
  refine ⟨?_, ?_, ?_⟩
  · rw [hf.grammar, hf.iteration]
    exact h.grown.measures hf
  · rw [hf.segmentCount, hf.sentence]
    exact h.segments
  · rw [hf.bounds, hf.grammar, hf.sentence]
    exact h.bounds

/-- The word of a coherent derivation. -/
theorem sentence_eq {d : Derivation α} (h : d.Coherent) :
    d.sentence = d.grammar.rules.derive d.grammar.seed d.iteration := h.grown.sentence

end Coherent

end Derivation

/-- **Coherence.** Every derivation on show is coherent. -/
theorem Explorer.coherent_of_reachable {e : Explorer α} (he : Reachable e) {d : Derivation α}
    (hd : e.derivation = some d) : d.Coherent :=
  Reachable.shown .start (fun _ _ h => h.grow) (fun _ h => h.rewind)
    (fun _ hf _ h => h.measures hf) he rfl hd

/-! ### Frames -/

namespace Frame

/-- Two colour sources that give every stroke the same colour. -/
structure SameColors (s s' : ColorSource α) : Prop where
  mode : s.mode = s'.mode
  first : s.palette.get 0 = s'.palette.get 0
  resolve (b : Option (Bounds α)) (k : ColorContext α) :
    ({ s with bounds := b } : ColorSource α).resolve k =
      ({ s' with bounds := b } : ColorSource α).resolve k

/-- Two views that show a canvas of one size at one place. -/
structure SameView (v v' : Viewport α) : Prop where
  width : v.width = v'.width
  height : v.height = v'.height
  scale : v.scale = v'.scale
  offset : v.offset = v'.offset

/-- **What a frame depends on.** Coherent derivations of one grammar and one count give the same
frame, in the same view and with the same colours. -/
theorem draw_eq_of_coherent {d d' : Derivation α} (hd : d.Coherent) (hd' : d'.Coherent)
    (hgrammar : d.grammar = d'.grammar) (hiteration : d.iteration = d'.iteration)
    {v v' : Viewport α} (hview : SameView v v') {s s' : ColorSource α} (hcolors : SameColors s s')
    (background : Rgb) (strokeWidth : α) :
    draw d v s background strokeWidth = draw d' v' s' background strokeWidth := by
  have hsentence : d.sentence = d'.sentence := by
    rw [hd.sentence_eq, hd'.sentence_eq, hgrammar, hiteration]
  have hbounds : d.bounds = d'.bounds := by rw [hd.bounds, hd'.bounds, hgrammar, hsentence]
  have htotal : totalFor d s.mode = totalFor d' s'.mode := by
    rw [totalFor, totalFor, hd.segments, hd'.segments, hsentence, hcolors.mode]
  have hopening : opening d v s background strokeWidth =
      opening d' v' s' background strokeWidth := by
    rw [opening, opening, placement, placement, hgrammar, hview.width, hview.height, hview.scale,
      hview.offset, hcolors.mode, hcolors.first]
  -- Colours are asked for with the total and the box of the derivation at hand.
  have hcalls : callsOf (colorsFor d s) (totalFor d s.mode) d.grammar.length =
      callsOf (colorsFor d' s') (totalFor d' s'.mode) d'.grammar.length := by
    funext action
    cases action with
    | draw stroke =>
      have hmode : (colorsFor d s).mode = (colorsFor d' s').mode := hcolors.mode
      have hresolve := hcolors.resolve (if s.mode = .position then some d.bounds else none)
        (contextOf (totalFor d s.mode) stroke)
      have hsource : (colorsFor d s).resolve (contextOf (totalFor d s.mode) stroke) =
          (colorsFor d' s').resolve (contextOf (totalFor d' s'.mode) stroke) := by
        rw [colorsFor, colorsFor, hresolve, htotal, hcolors.mode, hbounds]
      rw [callsOf, callsOf, hmode, hsource, hgrammar]
    | turn degrees => rfl
    | push => rfl
    | pop => rfl
  rw [draw, draw, hopening, hcalls, hgrammar, hsentence]

end Frame

end TurtleCurves
