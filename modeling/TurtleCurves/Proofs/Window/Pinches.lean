import TurtleCurves.Proofs.View.Magnification
import TurtleCurves.Proofs.Window.Fingers

namespace TurtleCurves

/-!
# What a pinch compares

A pinch magnifies by the ratio of two distances: that of the two fingers that pinch now, and that
of the two that pinched when a distance was last taken.  These are the same two as long as no touch
in between brings a lower finger or lifts one of them.

* `Touches.Samples` — a touch at which the distance of a couple is taken;
* `Touches.Silent` — a history of touches that mean nothing for a pinch;
* `LastSample es c since` — in the history `es` the distance was last taken of `c`, and the silent
  touches `since` have come after that;
* `Viewport.span_touchAll` — a view knows the distance of the last sample, or none;
* `LastSample.couple?_eq` — touches that spare the two leave them the two that pinch;
* `Viewport.zoom_of_touches` — hence what a pinch compares;
* `Viewport.zoom_without_motion` — a third finger can make a pinch out of no motion at all.
-/

variable {α : Type}

/-! ### Samples -/

namespace Touches

/-- At this touch the distance of the couple is taken: a pinch begins or goes on with it. -/
def Samples (t : Touches α) (e : TouchEvent α) (c : Couple α) : Prop :=
  (t.update e).2.couple? = some c ∧
    ∃ p, (t.update e).1 = some p ∧ p.places? = some (c.first.2, c.second.2)

/-- None of the touches means anything for a pinch. -/
def Silent (t : Touches α) : List (TouchEvent α) → Prop
  | [] => True
  | e :: es => (t.update e).1 = Option.none ∧ (t.update e).2.Silent es

/-- One more silent touch. -/
theorem silent_concat {t : Touches α} {es : List (TouchEvent α)} {e : TouchEvent α} :
    t.Silent (es ++ [e]) ↔ t.Silent es ∧ ((t.updateAll es).update e).1 = Option.none := by
  induction es generalizing t with
  | nil => exact and_comm
  | cons x es ih =>
    show (t.update x).1 = Option.none ∧ (t.update x).2.Silent (es ++ [e]) ↔ _
    rw [ih, ← and_assoc]
    rfl

end Touches

/-- In the history `es` of touches the distance was last taken of the couple `c`, and the touches
`since` have come after that. -/
def LastSample (es : List (TouchEvent α)) (c : Couple α) (since : List (TouchEvent α)) : Prop :=
  ∃ before e, es = before ++ e :: since ∧ (Touches.none.updateAll before).Samples e c ∧
    ((Touches.none.updateAll before).update e).2.Silent since

namespace LastSample

variable {es since : List (TouchEvent α)} {c : Couple α}

/-- The fingers after the history are those of the last sample after the touches since then. -/
theorem updateAll_eq (h : LastSample es c since) :
    ∃ t : Touches α, t.couple? = some c ∧ t.Silent since ∧
      Touches.none.updateAll es = t.updateAll since := by
  obtain ⟨before, e, rfl, hsample, hsilent⟩ := h
  exact ⟨_, hsample.1, hsilent, Touches.updateAll_append ..⟩

/-- A touch that means nothing for a pinch. -/
theorem extend (h : LastSample es c since) {e : TouchEvent α}
    (he : ((Touches.none.updateAll es).update e).1 = none) :
    LastSample (es ++ [e]) c (since ++ [e]) := by
  obtain ⟨before, s, rfl, hsample, hsilent⟩ := h
  refine ⟨before, s, by simp, hsample, Touches.silent_concat.mpr ⟨hsilent, ?_⟩⟩
  rw [Touches.updateAll_append] at he
  exact he

end LastSample

/-! ### Touches that spare a couple -/

namespace Couple

variable {c d : Couple α}

/-- Couples with the same numbers have the same first and the same second. -/
theorem ids_inj (h : d.ids = c.ids) : d.first.1 = c.first.1 ∧ d.second.1 = c.second.1 :=
  Prod.mk.inj h

/-- They are made of the same fingers. -/
theorem has_congr (h : d.ids = c.ids) (id : Nat) : d.Has id ↔ c.Has id := by
  obtain ⟨hfirst, hsecond⟩ := ids_inj h
  rw [Has, Has, hfirst, hsecond]

/-- They are spared by the same touches. -/
theorem spares_congr (h : d.ids = c.ids) (e : TouchEvent α) : d.Spares e ↔ c.Spares e := by
  have hsecond := (ids_inj h).2
  have hhas := has_congr h e.id
  unfold Spares
  split
  · rw [hhas, hsecond]
  · rw [hhas, hsecond]
  · rw [hhas]
  · rw [hhas]

end Couple

/-- Touches that spare the two that pinch leave them these two, and where they are if none of the
touches is about them. -/
theorem Touches.couple?_updateAll {t : Touches α} {c : Couple α} (h : t.couple? = some c)
    {es : List (TouchEvent α)} (hspares : ∀ e ∈ es, c.Spares e) :
    ∃ d, (t.updateAll es).couple? = some d ∧ d.ids = c.ids ∧
      ((∀ e ∈ es, ¬ c.Has e.id) → d = c) := by
  induction es generalizing t c with
  | nil => exact ⟨c, h, rfl, fun _ => rfl⟩
  -- The first touch leaves the two, with the same numbers; so the others spare them as well.
  | cons e es ih =>
    obtain ⟨he, hes⟩ := List.forall_mem_cons.mp hspares
    have hids := c.ids_touch e
    obtain ⟨d, hd, hdc, hstill⟩ := ih (couple?_update h he) fun x hx =>
      (Couple.spares_congr hids x).mpr (hes x hx)
    refine ⟨d, hd, hdc.trans hids, fun hnone => ?_⟩
    obtain ⟨hnot, hrest⟩ := List.forall_mem_cons.mp hnone
    rw [hstill fun x hx hhas => hrest x hx ((Couple.has_congr hids x.id).mp hhas),
      Couple.touch_of_not_has hnot]

/-! ### The distance that a view knows -/

namespace Viewport

variable [Scalar α]

/-- A pinch that tells two places leaves their distance with the view. -/
theorem span_perform_of_places? (v : Viewport α) {p : Pinch α} {a b : Point α}
    (h : p.places? = some (a, b)) : (v.perform p.gesture).span = a.distance b := by
  cases p with
  | start a' b' =>
    obtain ⟨rfl, rfl⟩ := Prod.mk.inj (Option.some.inj h)
    rfl
  | move a' b' =>
    obtain ⟨rfl, rfl⟩ := Prod.mk.inj (Option.some.inj h)
    rfl
  | stop remaining => cases h

/-- A pinch that stops leaves it without one. -/
theorem span_perform_of_places?_eq_none (v : Viewport α) {p : Pinch α} (h : p.places? = none) :
    (v.perform p.gesture).span = (0 : α) := by
  cases p with
  | start a b => cases h
  | move a b => cases h
  | stop remaining => cases remaining <;> rfl

/-- **What a view knows.** After any history of touches that begins without fingers, a view that
knew no distance knows that of the last sample, or none. -/
theorem span_touchAll {v : Viewport α} (hspan : v.span = (0 : α)) (es : List (TouchEvent α)) :
    (v.touchAll .none es).span = (0 : α) ∨
      ∃ c since, LastSample es c since ∧ (v.touchAll .none es).span = c.distance := by
  induction es using List.reverseRecOn with
  | nil => exact .inl hspan
  | append_singleton es e ih =>
    rw [touchAll_concat]
    -- The last touch means nothing, or tells two places, or ends a pinch.
    cases hp : ((Touches.none.updateAll es).update e).1 with
    | none =>
      rcases ih with hzero | ⟨c, since, hlast, hknown⟩
      · exact .inl hzero
      · exact .inr ⟨c, since ++ [e], hlast.extend hp, hknown⟩
    | some p =>
      cases hplaces : p.places? with
      | none => exact .inl (span_perform_of_places?_eq_none _ hplaces)
      | some places =>
        obtain ⟨a, b⟩ := places
        obtain ⟨c, hc, rfl, rfl⟩ := Touches.couple?_of_places? hp hplaces
        exact .inr ⟨c, [], ⟨es, e, rfl, ⟨hc, p, hp, hplaces⟩, trivial⟩,
          span_perform_of_places? _ hplaces⟩

/-! ### Exact pinches -/

/-- What a touch means keeps the view within its limits. -/
theorem inRange_pinch {v : Viewport ℝ} (h : v.InRange) (p : Option (Pinch ℝ)) :
    (v.pinch p).InRange := by
  cases p with
  | none => exact h
  | some p => exact h.perform p.gesture

/-- So does a history of touches. -/
theorem inRange_touchAll {v : Viewport ℝ} (h : v.InRange) (t : Touches ℝ)
    (es : List (TouchEvent ℝ)) : (v.touchAll t es).InRange := by
  induction es generalizing v t with
  | nil => exact h
  | cons e es ih => exact ih (inRange_pinch h _) _

/-- **What a pinch compares.** Let a history of touches begin without fingers and with a view that
knows no distance.  Whenever a moved finger magnifies, it does so about the middle of the two that
pinch, by the ratio of their distance to that of the couple sampled last.  If every touch since
then, this one included, spares that couple, the two are the same fingers; and if none but this one
is about them, and this one tells of its finger what is known, the scale stays as it is. -/
theorem zoom_of_touches {v : Viewport ℝ} (hspan : v.span = 0) (hrange : v.InRange)
    {es : List (TouchEvent ℝ)} {e : TouchEvent ℝ} {a b : Point ℝ}
    (hmove : ((Touches.none.updateAll es).update e).1 = some (.move a b))
    (hzoom : 0 < (v.touchAll .none es).span) :
    ∃ old since new, LastSample es old since ∧ LastSample (es ++ [e]) new [] ∧
      new.first.2 = a ∧ new.second.2 = b ∧
      v.touchAll .none (es ++ [e]) =
        ((v.touchAll .none es).zoom new.midpoint (new.distance / old.distance)).knowing
          new.distance ∧
      ((∀ x ∈ since ++ [e], old.Spares x) → new.ids = old.ids ∧
        ((∀ x ∈ since, ¬ old.Has x.id) →
          (Touches.none.updateAll es).fingers.get? e.id = some e.position →
          (v.touchAll .none (es ++ [e])).scale = (v.touchAll .none es).scale)) := by
  obtain ⟨new, hnew, rfl, rfl⟩ := Touches.couple?_of_places? hmove rfl
  have hsampled : LastSample (es ++ [e]) new [] :=
    ⟨es, e, rfl, ⟨hnew, _, hmove, rfl⟩, trivial⟩
  have hzero : v.span = @OfNat.ofNat ℝ 0 (Arith.instOfNat 0) := by rw [hspan, exact_zero]
  obtain ⟨old, since, hlast, hknown⟩ := (span_touchAll hzero es).resolve_left fun hno => by
    rw [hno, exact_zero] at hzoom
    exact lt_irrefl 0 hzoom
  have hview : v.touchAll .none (es ++ [e]) =
      ((v.touchAll .none es).zoom new.midpoint (new.distance / old.distance)).knowing
        new.distance := by
    have hknows : @OfNat.ofNat ℝ 0 (Arith.instOfNat 0) < (v.touchAll .none es).span := by
      rw [exact_zero]
      exact hzoom
    rw [touchAll_concat, hmove, ← hknown]
    exact pinchMove_of_pos hknows _ _
  refine ⟨old, since, new, hlast, hsampled, rfl, rfl, hview, fun hspares => ?_⟩
  obtain ⟨hsince, he⟩ := List.forall_mem_append.mp hspares
  obtain ⟨t, ht, _, hfingers⟩ := hlast.updateAll_eq
  obtain ⟨d, hd, hids, hstill⟩ := Touches.couple?_updateAll ht hsince
  rw [← hfingers] at hd
  have hespares : d.Spares e := (Couple.spares_congr hids e).mpr (he e (by simp))
  obtain rfl : d.touch e = new :=
    Option.some.inj ((Touches.couple?_update hd hespares).symm.trans hnew)
  refine ⟨(d.ids_touch e).trans hids, fun hnone hrepeat => ?_⟩
  -- Nothing has moved since the last sample: the ratio is that of a distance to itself.
  obtain rfl := hstill hnone
  have hsame : d.touch e = d := Touches.touch_of_get? hd hrepeat
  have hpos : d.distance ≠ 0 := by
    rw [← hknown]
    exact hzoom.ne'
  rw [hview, hsame, div_self hpos]
  exact (inRange_touchAll hrange _ es).scale_zoom_one d.midpoint

/-- Two fingers put down ten apart, and one of them moved to twice the distance. -/
theorem zoom_of_two_fingers :
    let v : Viewport ℝ := ofSize 200 200
    let es : List (TouchEvent ℝ) := [⟨1, .start, ⟨0, 0⟩⟩, ⟨2, .start, ⟨10, 0⟩⟩]
    let e : TouchEvent ℝ := ⟨2, .move, ⟨20, 0⟩⟩
    v.span = 0 ∧ v.InRange ∧
      ((Touches.none.updateAll es).update e).1 = some (.move ⟨0, 0⟩ ⟨20, 0⟩) ∧
      0 < (v.touchAll .none es).span ∧
      ∃ old since new, LastSample es old since ∧ LastSample (es ++ [e]) new [] ∧
        new.first.2 = ⟨0, 0⟩ ∧ new.second.2 = ⟨20, 0⟩ ∧
        v.touchAll .none (es ++ [e]) =
          ((v.touchAll .none es).zoom new.midpoint (new.distance / old.distance)).knowing
            new.distance ∧
        ((∀ x ∈ since ++ [e], old.Spares x) → new.ids = old.ids ∧
          ((∀ x ∈ since, ¬ old.Has x.id) →
            (Touches.none.updateAll es).fingers.get? e.id = some e.position →
            (v.touchAll .none (es ++ [e])).scale = (v.touchAll .none es).scale)) := by
  intro v es e
  have hspan : v.span = 0 := exact_zero
  have hmove : ((Touches.none.updateAll es).update e).1 = some (.move ⟨0, 0⟩ ⟨20, 0⟩) := rfl
  -- The distance is known from the moment there are two fingers.
  have hzoom : 0 < (v.touchAll .none es).span := by
    show 0 < (⟨0, 0⟩ : Point ℝ).distance ⟨10, 0⟩
    rw [Point.distance_of_row]
    norm_num
  have hrange : v.InRange := .ofSize 200 200
  exact ⟨hspan, hrange, hmove, hzoom, zoom_of_touches hspan hrange hmove hzoom⟩

/-- **A pinch out of no motion.** Two fingers are down forty apart when a third with a lower number
is put down, sixty from the nearer of them.  Then a touch that tells of the third finger what is
known magnifies by one half. -/
theorem zoom_without_motion :
    let v : Viewport ℝ := ofSize 200 200
    let es : List (TouchEvent ℝ) :=
      [⟨5, .start, ⟨80, 100⟩⟩, ⟨7, .start, ⟨120, 100⟩⟩, ⟨3, .start, ⟨20, 100⟩⟩]
    let e : TouchEvent ℝ := ⟨3, .move, ⟨20, 100⟩⟩
    (Touches.none.updateAll es).fingers.get? e.id = some e.position ∧
      (v.touchAll .none es).scale = 1 ∧ (v.touchAll .none (es ++ [e])).scale = 3 / 2 := by
  intro v es e
  refine ⟨rfl, exact_one, ?_⟩
  -- The third finger joins with the lowest number, but the span is still that of the first pair.
  have hspan : (v.touchAll .none es).span = 40 := by
    show (⟨80, 100⟩ : Point ℝ).distance ⟨120, 100⟩ = 40
    rw [Point.distance_of_row]
    norm_num
  -- Its first sample is measured with the finger that is now the second lowest.
  have hdistance : (⟨20, 100⟩ : Point ℝ).distance ⟨80, 100⟩ = 60 := by
    rw [Point.distance_of_row]
    norm_num
  have hmove : ((Touches.none.updateAll es).update e).1 = some (.move ⟨20, 100⟩ ⟨80, 100⟩) := rfl
  have hknows : @OfNat.ofNat ℝ 0 (Arith.instOfNat 0) < (v.touchAll .none es).span := by
    rw [exact_zero, hspan]
    norm_num
  rw [touchAll_concat, hmove]
  show ((v.touchAll .none es).pinchMove ⟨20, 100⟩ ⟨80, 100⟩).scale = 3 / 2
  rw [pinchMove_of_pos hknows, hspan, hdistance]
  show Arith.clamp minScale maxScale ((v.touchAll .none es).scale * (60 / 40)) = 3 / 2
  have hscale : (v.touchAll .none es).scale = 1 := exact_one
  rw [hscale, Arith.clamp_of_mem]
  · norm_num
  · unfold minScale
    norm_num
  · unfold maxScale
    norm_num

end Viewport

end TurtleCurves
