import TurtleCurves.Proofs.Latest
import TurtleCurves.Proofs.SortedMap
import TurtleCurves.Proofs.Window.Fingers

namespace TurtleCurves

/-!
# Rounds of pinches

Touches may come in any order: a finger may move that was never put down, be put down twice, or be
lifted without having been there.  This file says what is known of the fingers all the same, and
what is told of the pinches.

* `Touches.get?_updateAll` — a finger is down exactly when the latest touch about it puts it down
  or moves it, and it is where that touch says;
* `Touches.lowest_of_places?` — a pinch tells the places of the two lowest fingers, in their order;
* `Touches.exists_stop_iff`, `Touches.remaining_of_stop` — a pinch stops exactly when two fingers
  become one, and that one is told;
* `Pinch.IsRound` — a pinch from its first report to its stop;
* `Touches.told`, `Touches.inRounds_told` — what is told along a history falls into rounds;
* `Touches.fingers_of_history` — all of it, for every history.
-/

variable {α : Type}

/-! ### Where a finger is -/

/-- The touch is about the finger with this number. -/
def TouchEvent.IsOf (id : Nat) (e : TouchEvent α) : Prop := e.id = id

namespace Touches

theorem updateAll_concat (t : Touches α) (es : List (TouchEvent α)) (e : TouchEvent α) :
    t.updateAll (es ++ [e]) = ((t.updateAll es).update e).2 := updateAll_append t es [e]

/-- A touch changes what is known of its own finger only. -/
theorem get?_update_of_ne {t : Touches α} {e : TouchEvent α} {id : Nat} (h : id ≠ e.id) :
    (t.update e).2.fingers.get? id = t.fingers.get? id := by
  obtain ⟨_, phase, _⟩ := e
  cases phase with
  | start | move => exact (SortedMap.get?_insert t.fingers _ id _).trans (if_neg h)
  | finish | cancel => exact (SortedMap.get?_erase t.fingers _ id).trans (if_neg h)

/-- A finger is down after a touch about it if that puts it down or moves it. -/
theorem get?_update_self {t : Touches α} {e : TouchEvent α} {p : Point α} :
    (t.update e).2.fingers.get? e.id = some p ↔
      (e.phase = .start ∨ e.phase = .move) ∧ e.position = p := by
  obtain ⟨id, phase, q⟩ := e
  cases phase with
  | start | move =>
    show (t.fingers.insert id q).get? id = some p ↔ _
    rw [SortedMap.get?_insert_self]
    simp
  | finish | cancel =>
    show (t.fingers.erase id).get? id = some p ↔ _
    rw [SortedMap.get?_erase, if_pos rfl]
    simp

/-- **Where a finger is.** It is down exactly when the latest touch about it puts it down or moves
it, and it is where that touch says. -/
theorem get?_updateAll (es : List (TouchEvent α)) (id : Nat) (p : Point α) :
    (none.updateAll es).fingers.get? id = some p ↔
      ∃ e after, Latest (TouchEvent.IsOf id) es e after ∧
        (e.phase = .start ∨ e.phase = .move) ∧ e.position = p := by
  induction es using List.reverseRecOn with
  | nil =>
    refine iff_of_false (by simp [updateAll, none]) ?_
    rintro ⟨_, _, hlatest, _⟩
    exact not_latest_nil hlatest
  | append_singleton es e ih =>
    rw [updateAll_concat]
    -- A touch about the finger is now the latest one; any other leaves the latest one where it was.
    by_cases hof : e.IsOf id
    · have hid : e.id = id := hof
      rw [← hid, get?_update_self, hid]
      constructor
      · exact fun h => ⟨e, [], (latest_concat_of_pos hof).mpr ⟨rfl, rfl⟩, h⟩
      · rintro ⟨f, after, hlatest, h⟩
        obtain ⟨rfl, _⟩ := (latest_concat_of_pos hof).mp hlatest
        exact h
    · rw [get?_update_of_ne (Ne.symm hof), ih]
      constructor
      · rintro ⟨f, after, hlatest, h⟩
        exact ⟨f, after ++ [e], (latest_concat_of_neg hof).mpr ⟨after, rfl, hlatest⟩, h⟩
      · rintro ⟨f, after, hlatest, h⟩
        obtain ⟨mid, _, hearlier⟩ := (latest_concat_of_neg hof).mp hlatest
        exact ⟨f, mid, hearlier, h⟩

/-! ### What is told of the fingers -/

/-- `a` and `b` are the places of the two lowest fingers that are down, in their order. -/
def Lowest (t : Touches α) (a b : Point α) : Prop :=
  ∃ i j, i < j ∧ t.fingers.get? i = some a ∧ t.fingers.get? j = some b ∧
    ∀ id, (t.fingers.get? id).isSome → id = i ∨ id = j ∨ j < id

/-- The two that pinch are the two lowest. -/
theorem lowest_of_couple? {t : Touches α} {c : Couple α} (h : t.couple? = some c) :
    t.Lowest c.first.2 c.second.2 := by
  obtain ⟨rest, hentries, hlt, _⟩ := entries_of_couple? h
  refine ⟨c.first.1, c.second.1, hlt, ?_, ?_, fun id hdown => ?_⟩
  · exact SortedMap.mem_entries_iff.mp (by simp [hentries])
  · exact SortedMap.mem_entries_iff.mp (by simp [hentries])
  · obtain ⟨p, hp⟩ := Option.isSome_iff_exists.mp hdown
    rcases mem_of_couple? h hp with hfirst | hsecond | hhigher
    · exact .inl (congrArg Prod.fst hfirst)
    · exact .inr (.inl (congrArg Prod.fst hsecond))
    · exact .inr (.inr hhigher)

/-- **The two lowest.** A pinch tells where the two lowest fingers are. -/
theorem lowest_of_places? {t : Touches α} {e : TouchEvent α} {p : Pinch α} {a b : Point α}
    (hp : (t.update e).1 = some p) (hplaces : p.places? = some (a, b)) :
    (t.update e).2.Lowest a b := by
  obtain ⟨c, hc, rfl, rfl⟩ := couple?_of_places? hp hplaces
  exact lowest_of_couple? hc

/-- A pinch tells two places only while two fingers are down. -/
theorem two_le_count_of_places? {t : Touches α} {e : TouchEvent α} {p : Pinch α}
    (hp : (t.update e).1 = some p) (hplaces : p.places?.isSome) : 2 ≤ (t.update e).2.count := by
  obtain ⟨⟨a, b⟩, hab⟩ := Option.isSome_iff_exists.mp hplaces
  obtain ⟨c, hc, _⟩ := couple?_of_places? hp hab
  exact couple?_isSome.mp (Option.isSome_iff_exists.mpr ⟨c, hc⟩)

/-! ### How many fingers are down -/

/-- A finger that is put down or moved leaves no fewer fingers. -/
theorem count_le_count_put (t : Touches α) (id : Nat) (p : Point α) :
    t.count ≤ (t.put id p).count := SortedMap.size_le_size_insert t.fingers id p

/-- It makes at most one more. -/
theorem count_put_le (t : Touches α) (id : Nat) (p : Point α) :
    (t.put id p).count ≤ t.count + 1 := SortedMap.size_insert_le t.fingers id p

/-- A finger that is lifted leaves no more fingers. -/
theorem count_lift_le (t : Touches α) (id : Nat) : (t.lift id).count ≤ t.count :=
  SortedMap.size_erase_le t.fingers id

/-- It leaves at most one fewer. -/
theorem count_le_count_lift (t : Touches α) (id : Nat) : t.count ≤ (t.lift id).count + 1 :=
  SortedMap.size_le_size_erase t.fingers id

/-- A pinch ends when one of exactly two fingers is gone. -/
theorem endsPair_iff {t : Touches α} {e : TouchEvent α} :
    t.EndsPair e ↔ t.count = 2 ∧ (t.update e).2.count = 1 := by
  obtain ⟨id, phase, p⟩ := e
  cases phase with
  | start | move =>
    have hput := count_le_count_put t id p
    simp only [EndsPair, update, reduceCtorEq, or_self, false_and, false_iff]
    omega
  | finish | cancel =>
    have hlift := count_le_count_lift t id
    simp only [EndsPair, update, or_true, true_or, true_and]
    omega

/-- **When a pinch stops.** It does exactly when two fingers become one. -/
theorem exists_stop_iff {t : Touches α} {e : TouchEvent α} :
    (∃ remaining, (t.update e).1 = some (.stop remaining)) ↔
      t.count = 2 ∧ (t.update e).2.count = 1 := by
  rw [← endsPair_iff]
  constructor
  · rintro ⟨remaining, h⟩
    exact endsPair_of_stop h
  · intro h
    obtain ⟨p, hp⟩ := update_of_endsPair h
    exact ⟨some p, hp⟩

/-- **The finger that stays.** A pinch that stops tells where the one finger is that is left. -/
theorem remaining_of_stop {t : Touches α} {e : TouchEvent α} {remaining : Option (Point α)}
    (h : (t.update e).1 = some (.stop remaining)) :
    ∃ id p, (t.update e).2.fingers.entries = [(id, p)] ∧ remaining = some p := by
  have hone : (t.update e).2.fingers.entries.length = 1 := (exists_stop_iff.mp ⟨remaining, h⟩).2
  obtain ⟨⟨id, p⟩, hentries⟩ := List.length_eq_one_iff.mp hone
  refine ⟨id, p, hentries, ?_⟩
  obtain ⟨_, phase, _⟩ := e
  cases phase with
  -- Only a lift ends a pinch.
  | start | move => exact absurd (endsPair_of_stop h).1 (by simp)
  | finish | cancel =>
    simp only [update] at h hentries
    unfold lifted at h
    split at h
    · rw [← Pinch.stop.inj (Option.some.inj h), SortedMap.values, hentries]
      rfl
    · cases h

/-- Without two that pinch there are fewer than two fingers. -/
theorem pair_eq_none {t : Touches α} (h : t.pair = Option.none) : t.count < 2 := by
  by_contra hcount
  obtain ⟨c, hc⟩ := couple?_of_two_le_count (Nat.le_of_not_lt hcount)
  rw [pair_eq, hc] at h
  cases h

/-- A touch that means nothing neither makes two fingers nor leaves fewer than two. -/
theorem two_le_count_iff_of_update_eq_none {t : Touches α} {e : TouchEvent α}
    (h : (t.update e).1 = Option.none) : 2 ≤ (t.update e).2.count ↔ 2 ≤ t.count := by
  obtain ⟨id, phase, p⟩ := e
  cases phase with
  | start =>
    have hput := count_le_count_put t id p
    have hone := count_put_le t id p
    simp only [update, started] at h ⊢
    split at h
    · -- With exactly two fingers it would mean the start of a pinch.
      have := pair_eq_none (Option.map_eq_none_iff.mp h)
      omega
    · omega
  | move =>
    have hput := count_le_count_put t id p
    have hfew : (t.put id p).count < 2 := pair_eq_none (Option.map_eq_none_iff.mp h)
    show 2 ≤ (t.put id p).count ↔ 2 ≤ t.count
    omega
  | finish | cancel =>
    have hlift := count_lift_le t id
    simp only [update, lifted, ite_eq_right_iff, reduceCtorEq, imp_false] at h ⊢
    omega

/-! ### What is told along a history -/

/-- What a history of touches tells of the pinches. -/
def told (t : Touches α) : List (TouchEvent α) → List (Pinch α)
  | [] => []
  | e :: es => (t.update e).1.toList ++ (t.update e).2.told es

/-- What one more touch tells comes last. -/
theorem told_concat (t : Touches α) (es : List (TouchEvent α)) (e : TouchEvent α) :
    t.told (es ++ [e]) = t.told es ++ ((t.updateAll es).update e).1.toList := by
  induction es generalizing t with
  | nil => exact List.append_nil _
  | cons f es ih =>
    show (t.update f).1.toList ++ (t.update f).2.told (es ++ [e]) = _
    rw [ih, ← List.append_assoc]
    rfl

end Touches

/-- A pinch from its first report to its stop: it tells two places at least once, then it stops. -/
def Pinch.IsRound (ps : List (Pinch α)) : Prop :=
  ∃ opened remaining, ps = opened ++ [.stop remaining] ∧ opened ≠ [] ∧
    ∀ p ∈ opened, p.places?.isSome

namespace Touches

/-- What has been told falls into rounds and what is told of a pinch that has not stopped; there
is such a pinch while two fingers are down. -/
structure InRounds (t : Touches α) (ps : List (Pinch α)) (rounds : List (List (Pinch α)))
    (opened : List (Pinch α)) : Prop where
  split : ps = rounds.flatten ++ opened
  closed : ∀ round ∈ rounds, Pinch.IsRound round
  places : ∀ p ∈ opened, p.places?.isSome
  opened_iff : opened ≠ [] ↔ 2 ≤ t.count

/-- **One touch.** It says nothing, or adds to the pinch at hand, or makes a round of it. -/
theorem InRounds.update {t : Touches α} {ps opened : List (Pinch α)}
    {rounds : List (List (Pinch α))} (h : t.InRounds ps rounds opened) (e : TouchEvent α) :
    ∃ rounds' opened', (t.update e).2.InRounds (ps ++ (t.update e).1.toList) rounds' opened' := by
  cases hp : (t.update e).1 with
  | none =>
    refine ⟨rounds, opened, by simpa using h.split, h.closed, h.places, ?_⟩
    rw [h.opened_iff, two_le_count_iff_of_update_eq_none hp]
  | some p =>
    -- A report with two places goes on with the pinch at hand, and one without them is its stop.
    cases hplaces : p.places? with
    | some ab =>
      have hsome : p.places?.isSome := by simp [hplaces]
      exact ⟨rounds, opened ++ [p], by simp [h.split], h.closed,
        List.forall_mem_append.mpr ⟨h.places, List.forall_mem_singleton.mpr hsome⟩,
        iff_of_true (by simp) (two_le_count_of_places? hp hsome)⟩
    | none =>
      cases p with
      | start a b | move a b => cases hplaces
      | stop remaining =>
        -- Two fingers were down, so that something is open, and a stop makes a round of it.
        obtain ⟨hbefore, hafter⟩ := exists_stop_iff.mp ⟨remaining, hp⟩
        have hround : Pinch.IsRound (opened ++ [.stop remaining]) :=
          ⟨opened, remaining, rfl, h.opened_iff.mpr (Nat.le_of_eq hbefore.symm), h.places⟩
        exact ⟨rounds ++ [opened ++ [.stop remaining]], [], by simp [h.split],
          List.forall_mem_append.mpr ⟨h.closed, List.forall_mem_singleton.mpr hround⟩,
          by simp, iff_of_false (by simp) (by omega)⟩

/-- **What is told comes in rounds.** -/
theorem inRounds_told (es : List (TouchEvent α)) :
    ∃ rounds opened, (none.updateAll es).InRounds (none.told es) rounds opened := by
  induction es using List.reverseRecOn with
  | nil => exact ⟨[], [], rfl, by simp, by simp, iff_of_false (by simp) (by decide : ¬ 2 ≤ 0)⟩
  | append_singleton es e ih =>
    obtain ⟨rounds, opened, h⟩ := ih
    rw [updateAll_concat, told_concat]
    exact h.update e

/-- A pinch that has not stopped begins a round. -/
theorem InRounds.isPrefix {t : Touches α} {ps opened : List (Pinch α)}
    {rounds : List (List (Pinch α))} (h : t.InRounds ps rounds opened) :
    ∃ all : List (List (Pinch α)), (∀ round ∈ all, Pinch.IsRound round) ∧ ps <+: all.flatten := by
  obtain rfl := h.split
  by_cases hopened : opened = []
  · exact ⟨rounds, h.closed, by simp [hopened]⟩
  · -- Any stop will do for the round that is not over.
    have hround : Pinch.IsRound (opened ++ [.stop Option.none]) :=
      ⟨opened, Option.none, rfl, hopened, h.places⟩
    exact ⟨rounds ++ [opened ++ [.stop Option.none]],
      List.forall_mem_append.mpr ⟨h.closed, List.forall_mem_singleton.mpr hround⟩,
      [.stop Option.none], by simp⟩

/-- **Fingers of a history.** After every history of touches

* a finger is down exactly when the latest touch about it puts it down or moves it, and it is where
  that touch says;
* a pinch that starts or moves tells the places of the two lowest fingers, in their order;
* what has been told is the beginning of rounds, each of which starts or moves at least once and
  then stops;
* a pinch stops exactly when two fingers become one, and tells where that one is. -/
theorem fingers_of_history (es : List (TouchEvent α)) :
    (∀ id p, (none.updateAll es).fingers.get? id = some p ↔
      ∃ e after, Latest (TouchEvent.IsOf id) es e after ∧
        (e.phase = .start ∨ e.phase = .move) ∧ e.position = p) ∧
    (∀ e p a b, ((none.updateAll es).update e).1 = some p → p.places? = some (a, b) →
      (none.updateAll (es ++ [e])).Lowest a b) ∧
    (∃ rounds : List (List (Pinch α)),
      (∀ round ∈ rounds, Pinch.IsRound round) ∧ none.told es <+: rounds.flatten) ∧
    ∀ e, ((∃ remaining, ((none.updateAll es).update e).1 = some (.stop remaining)) ↔
        (none.updateAll es).count = 2 ∧ (none.updateAll (es ++ [e])).count = 1) ∧
      ∀ remaining, ((none.updateAll es).update e).1 = some (.stop remaining) →
        ∃ id p, (none.updateAll (es ++ [e])).fingers.entries = [(id, p)] ∧ remaining = some p := by
  -- The pinches told so far are whole rounds, but for the last, which may be open.
  obtain ⟨rounds, opened, htold⟩ := inRounds_told es
  refine ⟨get?_updateAll es, fun e p a b hp hplaces => ?_, htold.isPrefix, fun e => ?_⟩
  · rw [updateAll_concat]
    exact lowest_of_places? hp hplaces
  · rw [updateAll_concat]
    exact ⟨exists_stop_iff, fun remaining hstop => remaining_of_stop hstop⟩

/-- A finger that moves without having been put down makes a pinch with one that is there, and the
other one stays when it is lost. -/
theorem fingers_of_history_unseen :
    (none.updateAll [⟨7, .start, ⟨1, 1⟩⟩, ⟨3, .move, ⟨5, 5⟩⟩]).Lowest (⟨5, 5⟩ : Point Nat) ⟨1, 1⟩ ∧
    ∃ id p, (none.updateAll [⟨7, .start, ⟨1, 1⟩⟩, ⟨3, .move, ⟨5, 5⟩⟩, ⟨3, .cancel, ⟨5, 5⟩⟩]
      ).fingers.entries = [(id, p)] ∧ some (⟨1, 1⟩ : Point Nat) = some p := by
  obtain ⟨_, hplaces, _, _⟩ := fingers_of_history [⟨7, .start, (⟨1, 1⟩ : Point Nat)⟩]
  obtain ⟨_, _, _, hstop⟩ := fingers_of_history
    [⟨7, .start, (⟨1, 1⟩ : Point Nat)⟩, ⟨3, .move, ⟨5, 5⟩⟩]
  exact ⟨hplaces ⟨3, .move, ⟨5, 5⟩⟩ _ _ _ rfl rfl, (hstop ⟨3, .cancel, ⟨5, 5⟩⟩).2 _ rfl⟩

end Touches

end TurtleCurves
