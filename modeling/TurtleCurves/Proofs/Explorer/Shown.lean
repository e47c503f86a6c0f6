import TurtleCurves.Proofs.Explorer.Growth

namespace TurtleCurves.Explorer

/-!
# Words on show

A word on show starts as the seed of a grammar, and from then on it is grown, rewound and measured
only.

* `map_derivation_of_effect` — what growing, rewinding and measuring leave alone stays as long as no
  other grammar is asked for;
* `Reachable.shown` — what holds of seeds, and is kept by growing words that are not too long, by
  rewinding and by measuring, holds of every word on show.
-/

variable {α : Type} [Scalar α]

/-- **As long as no other grammar is asked for,** everything about the word on show that growing,
rewinding and measuring leave alone is as before. -/
theorem map_derivation_of_effect {β : Type} {part : Derivation α → β}
    (hgrow : ∀ d, part d.grow = part d) (hrewind : ∀ d, part d.rewind = part d)
    (hmeasures : ∀ f, Derivation.Measures f → ∀ d, part (f d) = part d)
    {e e' : Explorer α} {op : Operation α} (h : Effect e op e') (hop : op.asksGrammar = false) :
    e'.derivation.map part = e.derivation.map part := by
  cases h with
  | @quiet _ _ f hf hshow =>
    rw [hshow, Option.map_map]
    congr 1
    exact funext (hmeasures f hf)
  -- The two operations that put another word on show both ask for a grammar.
  | replaced hother => rcases hother with ⟨key, rfl⟩ | ⟨editor, rfl⟩ <;> cases hop
  | byHand _ hd _ hshow => rw [hshow, hd, Option.map_some, Option.map_some, hgrow]
  | rewound hd hshow => rw [hshow, hd, Option.map_some, Option.map_some, hrewind]
  | stepped _ hd _ _ _ hshow => rw [hshow, hd, Option.map_some, Option.map_some, hgrow]
  | finished _ hd _ _ _ hshow => rw [hshow, hd, Option.map_some, Option.map_some, hgrow]
  | calledOff hshow => rw [hshow]
  | started _ hd _ hshow => rw [hshow, hd]
  | refused _ hd _ _ hshow => rw [hshow, hd]
  | dropped hd hshow => rw [hshow, hd]

/-- **Induction over words on show.** Seeds come with grammars; all three ways of growing find a
word that is at most as long as the ceiling of steps by hand. -/
theorem Reachable.shown {P : Derivation α → Prop} {ceiling : Nat} (hstart : ∀ g, P (.start g))
    (hgrow : ∀ d, d.size ≤ ceiling → P d → P d.grow) (hrewind : ∀ d, P d → P d.rewind)
    (hmeasures : ∀ f, Derivation.Measures f → ∀ d, P d → P (f d)) {e : Explorer α}
    (he : Reachable e) (hceiling : e.limits.manual = ceiling) {d : Derivation α}
    (hd : e.derivation = some d) : P d := by
  induction he generalizing d with
  | start s width height => cases hd
  | @step e he op ih =>
    rw [limits_perform] at hceiling
    have hbefore : ∀ {d}, e.derivation = some d → P d := fun hd => ih hceiling hd
    -- Each effect starts a derivation, grows it below the ceiling, rewinds it, measures it or keeps
    -- it.
    cases e.effect_perform op with
    | @quiet _ _ f hf hshow =>
      rw [hshow, Option.map_eq_some_iff] at hd
      obtain ⟨d₀, hd₀, rfl⟩ := hd
      exact hmeasures f hf d₀ (hbefore hd₀)
    | replaced _ hshow =>
      obtain rfl := Option.some.inj (hshow.symm.trans hd)
      exact hstart _
    | byHand _ hd₀ hsize hshow =>
      obtain rfl := Option.some.inj (hshow.symm.trans hd)
      exact hgrow _ (hceiling ▸ hsize) (hbefore hd₀)
    | stepped _ hd₀ _ hsize _ hshow =>
      obtain rfl := Option.some.inj (hshow.symm.trans hd)
      exact hgrow _ (hceiling ▸ hsize) (hbefore hd₀)
    | finished _ hd₀ _ hsize _ hshow =>
      obtain rfl := Option.some.inj (hshow.symm.trans hd)
      exact hgrow _ (hceiling ▸ hsize) (hbefore hd₀)
    | rewound hd₀ hshow =>
      obtain rfl := Option.some.inj (hshow.symm.trans hd)
      exact hrewind _ (hbefore hd₀)
    | calledOff hshow => exact hbefore (hshow.symm.trans hd)
    | started _ hd₀ _ hshow => exact hbefore (hd₀.trans (hshow.symm.trans hd))
    | refused _ hd₀ _ _ hshow => exact hbefore (hd₀.trans (hshow.symm.trans hd))
    | dropped _ hshow => cases hshow.symm.trans hd

end TurtleCurves.Explorer
