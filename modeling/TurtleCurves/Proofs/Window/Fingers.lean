import TurtleCurves.Window.Canvas

namespace TurtleCurves

/-!
# Fingers on the canvas

The two fingers with the lowest numbers make a pinch.  This file says which two they are, what a
touch means for them, and what it does to a view and to a window.

* `Couple` — two fingers, each with its number and its place; `Touches.couple?`, the two that
  pinch;
* `Couple.Spares c e` — the touch `e` leaves the fingers of `c` the two lowest ones;
* `Touches.couple?_update` — after such a touch the same two pinch, each where it was unless the
  touch is about it;
* `Touches.BeginsPair`, `Touches.EndsPair` — a finger makes two, a lifted one leaves fewer;
* `Touches.update_of_endsPair`, `Touches.endsPair_of_stop` — a pinch ends with one finger left, and
  only so;
* `Viewport.pinch`, `Viewport.touchAll` — a view after what one touch means, and after a history
  of touches;
* `Window.touch_eq` — a touch of the window is an event of its fingers, and the pinch it means is an
  operation on its view.
-/

variable {α : Type}

/-! ### Couples -/

/-- Two fingers, each with its number and its place. -/
structure Couple (α : Type) where
  first : Nat × Point α
  second : Nat × Point α
  deriving DecidableEq, Repr

namespace Couple

/-- The numbers of the two fingers. -/
def ids (c : Couple α) : Nat × Nat := (c.first.1, c.second.1)

/-- One of the two fingers has this number. -/
def Has (c : Couple α) (id : Nat) : Prop := id = c.first.1 ∨ id = c.second.1

/-- How far the two fingers are apart. -/
def distance [Scalar α] (c : Couple α) : α := c.first.2.distance c.second.2

/-- The place half way between the two fingers. -/
def midpoint [Scalar α] (c : Couple α) : Point α := c.first.2.midpoint c.second.2

/-- The touch leaves the two fingers the lowest ones: it puts down or moves one of them or a
higher one, or it lifts neither. -/
def Spares (c : Couple α) (e : TouchEvent α) : Prop :=
  match e.phase with
  | .start | .move => c.Has e.id ∨ c.second.1 < e.id
  | .finish | .cancel => ¬ c.Has e.id

end Couple

namespace Touches

/-- The two fingers that pinch. -/
def couple? (t : Touches α) : Option (Couple α) :=
  match t.fingers.entries with
  | a :: b :: _ => some ⟨a, b⟩
  | _ => Option.none

/-- The first two entries pinch. -/
theorem couple?_of_entries {t : Touches α} {a b : Nat × Point α} {rest : List (Nat × Point α)}
    (h : t.fingers.entries = a :: b :: rest) : t.couple? = some ⟨a, b⟩ := by
  unfold couple?
  rw [h]

/-- The two places of the fingers that pinch. -/
theorem pair_eq (t : Touches α) : t.pair = t.couple?.map fun c => (c.first.2, c.second.2) := by
  unfold pair couple? SortedMap.values
  match t.fingers.entries with
  | [] => rfl
  | [_] => rfl
  | _ :: _ :: _ => rfl

/-- There are two fingers that pinch as soon as there are two. -/
theorem couple?_isSome {t : Touches α} : t.couple?.isSome ↔ 2 ≤ t.count := by
  unfold couple? count SortedMap.size
  match t.fingers.entries with
  | [] => simp
  | [_] => simp
  | _ :: _ :: _ => simp

/-- With two fingers down there are two that pinch. -/
theorem couple?_of_two_le_count {t : Touches α} (h : 2 ≤ t.count) : ∃ c, t.couple? = some c :=
  Option.isSome_iff_exists.mp (couple?_isSome.mpr h)

/-- The fingers of a couple come first, in the order of their numbers. -/
theorem entries_of_couple? {t : Touches α} {c : Couple α} (h : t.couple? = some c) :
    ∃ rest, t.fingers.entries = c.first :: c.second :: rest ∧ c.first.1 < c.second.1 ∧
      ∀ r ∈ rest, c.second.1 < r.1 := by
  have hsorted := t.fingers.sorted
  unfold couple? at h
  match hentries : t.fingers.entries with
  | [] => simp [hentries] at h
  | [_] => simp [hentries] at h
  | a :: b :: rest =>
    rw [hentries] at h hsorted
    obtain rfl := Option.some.inj h
    obtain ⟨hfirst, hrest⟩ := List.pairwise_cons.mp hsorted
    exact ⟨rest, rfl, hfirst b List.mem_cons_self, (List.pairwise_cons.mp hrest).1⟩

end Touches

/-! ### What a touch leaves of a couple -/

namespace Couple

/-- A finger after a touch that tells its place. -/
def moveTo (e : TouchEvent α) (f : Nat × Point α) : Nat × Point α :=
  if e.id = f.1 then (f.1, e.position) else f

/-- The couple after a touch that spares it. -/
def touch (c : Couple α) (e : TouchEvent α) : Couple α :=
  match e.phase with
  | .start | .move => ⟨moveTo e c.first, moveTo e c.second⟩
  | .finish | .cancel => c

theorem fst_moveTo (e : TouchEvent α) (f : Nat × Point α) : (moveTo e f).1 = f.1 := by
  unfold moveTo
  split <;> rfl

/-- A touch leaves the numbers of the two. -/
@[simp] theorem ids_touch (c : Couple α) (e : TouchEvent α) : (c.touch e).ids = c.ids := by
  unfold touch
  split
  · exact Prod.ext (fst_moveTo e c.first) (fst_moveTo e c.second)
  · exact Prod.ext (fst_moveTo e c.first) (fst_moveTo e c.second)
  · rfl
  · rfl

/-- A touch of another finger leaves both where they are. -/
theorem touch_of_not_has {c : Couple α} {e : TouchEvent α} (h : ¬ c.Has e.id) : c.touch e = c := by
  obtain ⟨hfirst, hsecond⟩ := not_or.mp h
  unfold touch moveTo
  rw [if_neg hfirst, if_neg hsecond]
  split <;> rfl

end Couple

namespace Touches

/-- A finger that is put down or moved leaves the two, if it is one of them or comes after them. -/
theorem couple?_put {t : Touches α} {c : Couple α} (h : t.couple? = some c) {e : TouchEvent α}
    (hid : c.Has e.id ∨ c.second.1 < e.id) :
    (t.put e.id e.position).couple? = some ⟨Couple.moveTo e c.first, Couple.moveTo e c.second⟩ := by
  obtain ⟨rest, hentries, hlt, _⟩ := entries_of_couple? h
  have hplace : (t.put e.id e.position).fingers.entries =
      SortedMap.place e.id e.position (c.first :: c.second :: rest) := by
    rw [← hentries]
    rfl
  obtain ⟨⟨i, a⟩, ⟨j, b⟩⟩ := c
  obtain ⟨id, phase, p⟩ := e
  simp only [Couple.Has] at hid hlt hplace
  simp only [Couple.moveTo]
  -- It is the first, the second, or one behind both in the order of numbers.
  rcases hid with (rfl | rfl) | hid
  · rw [SortedMap.place_self] at hplace
    rw [if_pos rfl, if_neg (Nat.ne_of_lt hlt)]
    exact couple?_of_entries hplace
  · rw [SortedMap.place_of_lt hlt, SortedMap.place_self] at hplace
    rw [if_neg (Nat.ne_of_gt hlt), if_pos rfl]
    exact couple?_of_entries hplace
  · rw [SortedMap.place_of_lt (Nat.lt_trans hlt hid), SortedMap.place_of_lt hid] at hplace
    rw [if_neg (Nat.ne_of_gt (Nat.lt_trans hlt hid)), if_neg (Nat.ne_of_gt hid)]
    exact couple?_of_entries hplace

/-- A finger that is lifted leaves the two, if it is neither of them. -/
theorem couple?_lift {t : Touches α} {c : Couple α} (h : t.couple? = some c) {id : Nat}
    (hid : ¬ c.Has id) : (t.lift id).couple? = some c := by
  obtain ⟨rest, hentries, _, _⟩ := entries_of_couple? h
  obtain ⟨hfirst, hsecond⟩ := not_or.mp hid
  have hkept : ∀ f : Nat × Point α, id ≠ f.1 →
      (!decide (Ranked.rank f.1 = Ranked.rank id)) = true := fun f hne => by
    rw [Bool.not_eq_true', decide_eq_false_iff_not]
    exact fun heq => hne heq.symm
  have hfilter : (t.lift id).fingers.entries =
      (c.first :: c.second :: rest).filter fun f =>
        !decide (Ranked.rank f.1 = Ranked.rank id) := by
    rw [← hentries]
    rfl
  -- The two lowest entries stay in front when a finger that is neither goes up.
  rw [List.filter_cons, if_pos (hkept _ hfirst), List.filter_cons, if_pos (hkept _ hsecond)]
    at hfilter
  exact couple?_of_entries hfilter

/-- **The same two.** After a touch that spares the two that pinch, they still do. -/
theorem couple?_update {t : Touches α} {c : Couple α} (h : t.couple? = some c) {e : TouchEvent α}
    (hspares : c.Spares e) : (t.update e).2.couple? = some (c.touch e) := by
  obtain ⟨id, phase, p⟩ := e
  cases phase with
  | start => exact couple?_put h (e := ⟨id, .start, p⟩) hspares
  | move => exact couple?_put h (e := ⟨id, .move, p⟩) hspares
  | finish => exact couple?_lift h hspares
  | cancel => exact couple?_lift h hspares

/-- A finger that is down is one of the two that pinch, where they are, or a higher one. -/
theorem mem_of_couple? {t : Touches α} {c : Couple α} (h : t.couple? = some c) {id : Nat}
    {p : Point α} (hdown : t.fingers.get? id = some p) :
    (id, p) = c.first ∨ (id, p) = c.second ∨ c.second.1 < id := by
  obtain ⟨rest, hentries, _, hrest⟩ := entries_of_couple? h
  have hmem : (id, p) ∈ t.fingers.entries := SortedMap.mem_of_lookup hdown
  rw [hentries, List.mem_cons, List.mem_cons] at hmem
  rcases hmem with hfirst | hsecond | hmem
  · exact .inl hfirst
  · exact .inr (.inl hsecond)
  · exact .inr (.inr (hrest _ hmem))

/-- A touch that tells of a finger what is known changes nothing. -/
theorem touch_of_get? {t : Touches α} {c : Couple α} (h : t.couple? = some c) {e : TouchEvent α}
    (hdown : t.fingers.get? e.id = some e.position) : c.touch e = c := by
  have hstay : ∀ f : Nat × Point α, (e.id = f.1 → (e.id, e.position) = f) →
      Couple.moveTo e f = f := fun f hf => by
    unfold Couple.moveTo
    split
    · next heq => rw [← heq, hf heq]
    · rfl
  -- A finger of the couple has the place it reports; any other has a higher number.
  obtain ⟨_, _, hlt, _⟩ := entries_of_couple? h
  have hfirst : Couple.moveTo e c.first = c.first := hstay _ fun heq => by
    rcases mem_of_couple? h hdown with hf | hs | hgt
    · exact hf
    · exact absurd (heq.symm.trans (congrArg Prod.fst hs)) (Nat.ne_of_lt hlt)
    · omega
  have hsecond : Couple.moveTo e c.second = c.second := hstay _ fun heq => by
    rcases mem_of_couple? h hdown with hf | hs | hgt
    · exact absurd ((congrArg Prod.fst hf).symm.trans heq) (Nat.ne_of_lt hlt)
    · exact hs
    · omega
  unfold Couple.touch
  rw [hfirst, hsecond]
  split <;> rfl

/-! ### What a touch means -/

theorem updateAll_append (t : Touches α) (es fs : List (TouchEvent α)) :
    t.updateAll (es ++ fs) = (t.updateAll es).updateAll fs := List.foldl_append

/-- A finger is put down and makes two. -/
def BeginsPair (t : Touches α) (e : TouchEvent α) : Prop :=
  e.phase = .start ∧ (t.update e).2.count = 2

/-- A finger is lifted, or lost, and leaves fewer than two. -/
def EndsPair (t : Touches α) (e : TouchEvent α) : Prop :=
  (e.phase = .finish ∨ e.phase = .cancel) ∧ 2 ≤ t.count ∧ (t.update e).2.count < 2

/-- A finger that makes two begins a pinch. -/
theorem update_of_beginsPair {t : Touches α} {e : TouchEvent α} (h : t.BeginsPair e) :
    ∃ a b, (t.update e).1 = some (.start a b) := by
  obtain ⟨hphase, hcount⟩ := h
  simp only [update, hphase] at hcount ⊢
  obtain ⟨c, hc⟩ := couple?_of_two_le_count (Nat.le_of_eq hcount.symm)
  exact ⟨c.first.2, c.second.2, by rw [started, if_pos hcount, pair_eq, hc]; rfl⟩

/-- Of two fingers at least one stays when one is lifted. -/
theorem exists_stays {t : Touches α} (h : 2 ≤ t.count) (id : Nat) :
    ∃ p, (t.lift id).fingers.values.head? = some p := by
  obtain ⟨c, hc⟩ := couple?_of_two_le_count h
  obtain ⟨rest, hentries, hlt, _⟩ := entries_of_couple? hc
  have hstays : ∃ f ∈ t.fingers.entries, f.1 ≠ id := by
    -- The lifted finger is not both of the two.
    by_cases hid : c.first.1 = id
    · exact ⟨c.second, by simp [hentries], by omega⟩
    · exact ⟨c.first, by simp [hentries], hid⟩
  obtain ⟨f, hf, hne⟩ := hstays
  have hkept : f ∈ (t.lift id).fingers.entries := by
    refine List.mem_filter.mpr ⟨hf, ?_⟩
    rw [Bool.not_eq_true', decide_eq_false_iff_not]
    exact hne
  cases hrest : (t.lift id).fingers.entries with
  | nil => rw [hrest] at hkept; cases hkept
  | cons e rest => exact ⟨e.2, by simp [SortedMap.values, hrest]⟩

/-- A lift that leaves fewer than two leaves one, and tells its place. -/
theorem update_of_endsPair {t : Touches α} {e : TouchEvent α} (h : t.EndsPair e) :
    ∃ p, (t.update e).1 = some (.stop (some p)) := by
  obtain ⟨hphase, hbefore, hafter⟩ := h
  obtain ⟨p, hp⟩ := exists_stays hbefore e.id
  rcases hphase with hphase | hphase <;> simp only [update, hphase] at hafter ⊢
  all_goals exact ⟨p, by rw [lifted, if_pos ⟨hbefore, hafter⟩, hp]⟩

/-- Only such a lift ends a pinch. -/
theorem endsPair_of_stop {t : Touches α} {e : TouchEvent α} {remaining : Option (Point α)}
    (h : (t.update e).1 = some (.stop remaining)) : t.EndsPair e := by
  obtain ⟨id, phase, p⟩ := e
  -- A finger put down begins a pinch and one that moves continues it; neither ends one.
  cases phase with
  | start =>
    simp only [update, started] at h
    split at h
    · obtain ⟨_, _, hstop⟩ := Option.map_eq_some_iff.mp h
      cases hstop
    · cases h
  | move =>
    obtain ⟨_, _, hstop⟩ := Option.map_eq_some_iff.mp h
    cases hstop
  | finish | cancel =>
    simp only [update, lifted] at h
    split at h
    · next hcounts => exact ⟨by simp, hcounts⟩
    · cases h

end Touches

/-- The two places that a pinch tells, unless it stops. -/
def Pinch.places? : Pinch α → Option (Point α × Point α)
  | .start a b | .move a b => some (a, b)
  | .stop _ => none

/-- The places that a pinch tells are those of the two fingers that pinch after the touch. -/
theorem Touches.couple?_of_places? {t : Touches α} {e : TouchEvent α} {p : Pinch α}
    {a b : Point α} (hp : (t.update e).1 = some p) (hplaces : p.places? = some (a, b)) :
    ∃ c, (t.update e).2.couple? = some c ∧ c.first.2 = a ∧ c.second.2 = b := by
  have hpair : (t.update e).2.pair = some (a, b) := by
    obtain ⟨id, phase, q⟩ := e
    -- Starts and moves tell the pair after the touch; what a lift tells has no pair.
    cases phase with
    | start =>
      simp only [update, started] at hp ⊢
      split at hp
      · obtain ⟨⟨a', b'⟩, hpair, rfl⟩ := Option.map_eq_some_iff.mp hp
        rw [hpair, ← hplaces]
        rfl
      · cases hp
    | move =>
      simp only [update, moved] at hp ⊢
      obtain ⟨⟨a', b'⟩, hpair, rfl⟩ := Option.map_eq_some_iff.mp hp
      rw [hpair, ← hplaces]
      rfl
    | finish | cancel =>
      simp only [update, lifted] at hp
      split at hp
      · obtain rfl := Option.some.inj hp
        cases hplaces
      · cases hp
  rw [pair_eq] at hpair
  obtain ⟨c, hc, hab⟩ := Option.map_eq_some_iff.mp hpair
  exact ⟨c, hc, congrArg Prod.fst hab, congrArg Prod.snd hab⟩

/-! ### Views and windows -/

variable [Scalar α]

namespace Viewport

/-- The view after what a touch means, if it means anything. -/
def pinch (v : Viewport α) : Option (Pinch α) → Viewport α
  | none => v
  | some p => v.perform p.gesture

/-- The view after a history of touches that begins with some fingers down. -/
def touchAll (v : Viewport α) (t : Touches α) : List (TouchEvent α) → Viewport α
  | [] => v
  | e :: es => (v.pinch (t.update e).1).touchAll (t.update e).2 es

/-- A view after one history of touches and another. -/
theorem touchAll_append (v : Viewport α) (t : Touches α) (es fs : List (TouchEvent α)) :
    v.touchAll t (es ++ fs) = (v.touchAll t es).touchAll (t.updateAll es) fs := by
  induction es generalizing v t with
  | nil => rfl
  | cons e es ih => exact ih _ _

/-- A view after one more touch. -/
theorem touchAll_concat (v : Viewport α) (t : Touches α) (es : List (TouchEvent α))
    (e : TouchEvent α) :
    v.touchAll t (es ++ [e]) = (v.touchAll t es).pinch ((t.updateAll es).update e).1 := by
  rw [touchAll_append]
  rfl

end Viewport

/-- A touch of the window, seen from the corner of an area. -/
def TouchEvent.within (area : Area α) (e : TouchEvent α) : TouchEvent α :=
  { e with position := area.toLocal e.position }

namespace Window

/-- A touch changes the fingers and, if it means anything, the view. -/
theorem touch_eq (area : Area α) (w : Window α) (e : TouchEvent α) :
    touch area w e =
      { w with
        touches := (w.touches.update (e.within area)).2
        explorer :=
          { w.explorer with
            viewport := w.explorer.viewport.pinch (w.touches.update (e.within area)).1 } } := by
  show (match (w.touches.update (e.within area)).1 with
    | none => { w with touches := (w.touches.update (e.within area)).2 }
    | some p => ({ w with touches := (w.touches.update (e.within area)).2 }).gesture p.gesture) = _
  cases (w.touches.update (e.within area)).1 with
  | none => rfl
  | some p => rfl

/-- The view after several touches of the window. -/
theorem viewport_foldl_touch (area : Area α) (w : Window α) (es : List (TouchEvent α)) :
    (es.foldl (touch area) w).explorer.viewport =
      w.explorer.viewport.touchAll w.touches (es.map (·.within area)) := by
  induction es generalizing w with
  | nil => rfl
  | cons e es ih =>
    rw [List.foldl_cons, ih, touch_eq]
    rfl

end Window

end TurtleCurves
