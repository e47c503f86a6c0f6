import TurtleCurves.Color.SymbolColors
import TurtleCurves.Proofs.SortedMap

namespace TurtleCurves.SymbolColors

/-!
# Assigned palette stops

* `get?_refresh` — what a letter is assigned after a refresh: its old stop if it had one, and
  otherwise its place in the alphabet, wrapped around the palette;
* `refresh_refresh` — a second refresh for the same alphabet and palette changes nothing;
* `refreshAll`, `get?_refreshAll` — one refresh after the other, and the letters that all of their
  alphabets have;
* `refresh_keeps_stops` — the keys and the stops after a refresh, and after all that follow it;
* `Fits` — every letter of an alphabet is assigned, and only stops that the palette has;
* `Fits.refresh`, `Fits.insert` — a refresh fits the assignment to any other alphabet, and a choice
  of an existing stop keeps it fitting.
-/

variable {m : SymbolColors} {alphabet : List Char} {stops : Nat}

/-! ### Refreshing -/

theorem get?_adopt (stops : Nat) (m : SymbolColors) (c : Char) (i : Nat) (a : Char) :
    (adopt stops m (c, i)).get? a =
      if a = c then some ((m.get? a).getD (i % stops)) else m.get? a := by
  unfold adopt SortedMap.contains
  by_cases hac : a = c
  · subst hac
    cases hget : m.get? a with
    | some j => simp only [hget, Option.isSome_some, if_true, Option.getD_some]
    | none =>
      simp only [Option.isSome_none, Bool.false_eq_true, if_false, if_true,
        SortedMap.get?_insert_self, Option.getD_none]
  -- The map compares ranks, and these tell letters apart.
  · have hrank : ¬ Ranked.rank a = Ranked.rank c := fun h => hac (Ranked.rank_inj h)
    rw [if_neg hac]
    split
    · rfl
    · rw [SortedMap.get?_insert, if_neg hrank]

/-- The letters of an alphabet, adopted one after the other; `k` is the place of the first. -/
theorem get?_foldl_adopt (stops k : Nat) (m : SymbolColors) (a : Char) :
    ((alphabet.zipIdx k).foldl (adopt stops) m).get? a =
      if a ∈ alphabet then some ((m.get? a).getD ((k + alphabet.idxOf a) % stops))
      else m.get? a := by
  induction alphabet generalizing m k with
  | nil => rfl
  | cons c cs ih =>
    rw [List.zipIdx_cons, List.foldl_cons, ih, get?_adopt]
    by_cases hac : a = c
    · -- From here on the letter has a stop, and keeps it if it is listed again.
      subst hac
      rw [if_pos rfl, if_pos List.mem_cons_self, List.idxOf_cons_self, Option.getD_some, ite_self,
        Nat.add_zero]
    · rw [if_neg hac, List.idxOf_cons_ne cs (Ne.symm hac), Nat.add_assoc, Nat.add_comm 1,
        Nat.succ_eq_add_one]
      exact if_congr (by rw [List.mem_cons, or_iff_right hac]) rfl rfl

/-- **A refresh.** Letters outside the alphabet lose their stops, the others keep them, and a new
letter gets its first place in the alphabet, wrapped around the palette. -/
theorem get?_refresh (m : SymbolColors) (alphabet : List Char) (stops : Nat) (a : Char) :
    (m.refresh alphabet stops).get? a =
      if a ∈ alphabet then some ((m.get? a).getD (alphabet.idxOf a % max stops 1)) else none := by
  rw [refresh, get?_foldl_adopt, SortedMap.get?_filterKeys, Nat.zero_add]
  by_cases hmem : a ∈ alphabet
  · rw [if_pos hmem, if_pos hmem, if_pos (List.contains_iff_mem.mpr hmem)]
  · rw [if_neg hmem, if_neg hmem, if_neg fun h => hmem (List.contains_iff_mem.mp h)]

/-- Refreshing twice is refreshing once. -/
theorem refresh_refresh (m : SymbolColors) (alphabet : List Char) (stops : Nat) :
    (m.refresh alphabet stops).refresh alphabet stops = m.refresh alphabet stops := by
  refine SortedMap.ext_get? fun a => ?_
  rw [get?_refresh, get?_refresh]
  split <;> rfl

theorem mem_keys_refresh {a : Char} : a ∈ (m.refresh alphabet stops).keys ↔ a ∈ alphabet := by
  rw [SortedMap.mem_keys, get?_refresh]
  split <;> simp [*]

/-- A letter of the alphabet keeps the stop that it has. -/
theorem get?_refresh_of_get? {a : Char} {i : Nat} (ha : a ∈ alphabet) (hget : m.get? a = some i) :
    (m.refresh alphabet stops).get? a = some i := by
  rw [get?_refresh, if_pos ha, hget, Option.getD_some]

/-- A letter without a stop gets the one of its first place in the alphabet. -/
theorem get?_refresh_of_new {a : Char} (ha : a ∈ alphabet) (hget : m.get? a = none) :
    (m.refresh alphabet stops).get? a = some (alphabet.idxOf a % max stops 1) := by
  rw [get?_refresh, if_pos ha, hget, Option.getD_none]

/-! ### One refresh after the other -/

/-- The assignment after several refreshes, each for an alphabet and a number of stops. -/
def refreshAll (m : SymbolColors) (rounds : List (List Char × Nat)) : SymbolColors :=
  rounds.foldl (fun m round => m.refresh round.1 round.2) m

/-- **A stop survives.** A letter that no alphabet leaves out keeps its stop, wherever in the
alphabets it stands. -/
theorem get?_refreshAll {rounds : List (List Char × Nat)} {a : Char} {i : Nat}
    (hall : ∀ round ∈ rounds, a ∈ round.1) (hget : m.get? a = some i) :
    (m.refreshAll rounds).get? a = some i := by
  induction rounds generalizing m with
  | nil => exact hget
  | cons round rest ih =>
    obtain ⟨hround, hrest⟩ := List.forall_mem_cons.mp hall
    exact ih hrest (get?_refresh_of_get? hround hget)

/-- **Refreshing.** After a refresh exactly the letters of the alphabet have a stop: the old one if
they had one, and otherwise the one of their first place, wrapped around the palette.  The same
refresh once more changes nothing, and refreshes for other alphabets never change the stop of a
letter that all of them have, be it old or new. -/
theorem refresh_keeps_stops (m : SymbolColors) (alphabet : List Char) (stops : Nat) :
    (∀ a, a ∈ (m.refresh alphabet stops).keys ↔ a ∈ alphabet) ∧
      (∀ a ∈ alphabet, ∀ i, m.get? a = some i → (m.refresh alphabet stops).get? a = some i) ∧
      (∀ a ∈ alphabet, m.get? a = none →
        (m.refresh alphabet stops).get? a = some (alphabet.idxOf a % max stops 1)) ∧
      (m.refresh alphabet stops).refresh alphabet stops = m.refresh alphabet stops ∧
      ∀ (a : Char) (rounds : List (List Char × Nat)), (∀ round ∈ rounds, a ∈ round.1) →
        (∀ i, m.get? a = some i → (m.refreshAll rounds).get? a = some i) ∧
        (a ∈ alphabet → (m.refreshAll ((alphabet, stops) :: rounds)).get? a =
          (m.refresh alphabet stops).get? a) := by
  refine ⟨fun a => mem_keys_refresh, fun a ha i => get?_refresh_of_get? ha,
    fun a ha => get?_refresh_of_new ha, refresh_refresh m alphabet stops, ?_⟩
  intro a rounds hall
  refine ⟨fun i => get?_refreshAll hall, fun ha => ?_⟩
  -- Old or new, the letter has a stop after the first refresh, and the others leave it.
  obtain ⟨i, hi⟩ := Option.isSome_iff_exists.mp
    (SortedMap.mem_keys.mp (mem_keys_refresh.mpr ha) : ((m.refresh alphabet stops).get? a).isSome)
  rw [hi]
  show ((m.refresh alphabet stops).refreshAll rounds).get? a = some i
  exact get?_refreshAll hall hi

/-- The letter `B` was given stop `4`, and keeps it under a palette of five, of two and of no stops;
`G` is new, and keeps the stop of its place in the first alphabet. -/
theorem refresh_keeps_stops_of_choice :
    let m : SymbolColors := SortedMap.ofList [('A', 0), ('B', 4), ('F', 0)]
    let rounds : List (List Char × Nat) := [(['G', 'X', 'B'], 2), (['X', 'B', 'G'], 0)]
    m.get? 'B' = some 4 ∧ m.get? 'G' = none ∧ (∀ round ∈ rounds, 'B' ∈ round.1) ∧
      (∀ round ∈ rounds, 'G' ∈ round.1) ∧ (m.refresh ['B', 'G'] 5).keys = ['B', 'G'] ∧
      (m.refreshAll rounds).get? 'B' = some 4 ∧
      (m.refreshAll ((['B', 'G'], 5) :: rounds)).get? 'G' = some 1 := by
  intro m rounds
  have hold : m.get? 'B' = some 4 := by decide
  have hnew : m.get? 'G' = none := by decide
  have hroundsB : ∀ round ∈ rounds, 'B' ∈ round.1 := by decide
  have hroundsG : ∀ round ∈ rounds, 'G' ∈ round.1 := by decide
  obtain ⟨-, -, hplace, -, hlater⟩ := refresh_keeps_stops m ['B', 'G'] 5
  have hfirst : (m.refresh ['B', 'G'] 5).get? 'G' = some 1 := hplace 'G' (by decide) hnew
  exact ⟨hold, hnew, hroundsB, hroundsG, by decide, (hlater 'B' rounds hroundsB).1 4 hold,
    ((hlater 'G' rounds hroundsG).2 (by decide)).trans hfirst⟩

/-! ### Fitting assignments -/

/-- Every letter of the alphabet is assigned, and only stops that there are. -/
structure Fits (m : SymbolColors) (alphabet : List Char) (stops : Nat) : Prop where
  assigned : ∀ c ∈ alphabet, c ∈ m.keys
  lt_stops : ∀ entry ∈ m.entries, entry.2 < stops

namespace Fits

theorem empty (stops : Nat) : Fits ∅ [] stops :=
  ⟨fun _ h => absurd h List.not_mem_nil, fun _ h => absurd h List.not_mem_nil⟩

/-- The stop of a letter. -/
theorem get?_eq_some (h : Fits m alphabet stops) {c : Char} (hc : c ∈ alphabet) :
    ∃ i, m.get? c = some i ∧ i < stops := by
  obtain ⟨i, hi⟩ := Option.isSome_iff_exists.mp (SortedMap.mem_keys.mp (h.assigned c hc))
  exact ⟨i, hi, h.lt_stops (c, i) (SortedMap.mem_entries_iff.mpr hi)⟩

/-- **Another alphabet.** Old stops exist, and new ones are wrapped around the palette. -/
theorem refresh (h : Fits m alphabet stops) (hstops : 0 < stops) (other : List Char) :
    Fits (m.refresh other stops) other stops := by
  constructor
  · intro c hc
    rw [SortedMap.mem_keys, get?_refresh, if_pos hc]
    rfl
  · rintro ⟨c, i⟩ hmem
    have hget := SortedMap.mem_entries_iff.mp hmem
    rw [get?_refresh] at hget
    split at hget
    · obtain rfl := Option.some.inj hget
      -- A stop is kept from before, or it is a remainder and so below the number of stops.
      cases hold : m.get? c with
      | some j => exact h.lt_stops (c, j) (SortedMap.mem_entries_iff.mpr hold)
      | none => exact Nat.lt_of_lt_of_le (Nat.mod_lt _ (by omega)) (by omega)
    · cases hget

/-- **A choice.** A stop that exists keeps the assignment fitting. -/
theorem insert (h : Fits m alphabet stops) {i : Nat} (hi : i < stops) (c : Char) :
    Fits (m.insert c i) alphabet stops := by
  constructor
  · intro a ha
    obtain ⟨j, hj, -⟩ := h.get?_eq_some ha
    rw [SortedMap.mem_keys, SortedMap.get?_insert, hj]
    split <;> rfl
  · intro entry hmem
    rcases SortedMap.mem_of_mem_place hmem with rfl | hold
    · exact hi
    · exact h.lt_stops entry hold

end Fits

end TurtleCurves.SymbolColors
