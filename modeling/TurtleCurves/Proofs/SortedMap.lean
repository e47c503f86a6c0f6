import Mathlib.Data.List.Sort
import TurtleCurves.SortedMap

namespace TurtleCurves.SortedMap

/-!
# Sorted maps and their entries

* `mem_entries_iff` — a map lists exactly what can be looked up in it;
* `ext_get?` — maps are equal when every look-up is;
* `size_le_size_insert`, `size_insert_le`, `size_erase_le`, `size_le_size_erase` — a key that is set
  adds one entry at most, an erased one takes one at most;
* `mem_of_mem_entries_ofList` — a map that is put together lists nothing else;
* `ofList_entries` — a map is put together again from its entries.
-/

open Ranked (rank)

variable {κ β : Type} [Ranked κ]

/-! ### Entries and look-up -/

/-- What comes before every listed key is not found. -/
theorem lookup_eq_none_of_rank_lt {a : κ} {es : List (κ × β)} (h : ∀ e ∈ es, rank a < rank e.1) :
    lookup a es = none := by
  induction es with
  | nil => rfl
  | cons e rest ih =>
    obtain ⟨hfirst, hrest⟩ := List.forall_mem_cons.mp h
    rw [lookup, if_neg (Nat.ne_of_lt hfirst), ih hrest]

/-- **Entries are what can be looked up.** -/
theorem mem_entries_iff {m : SortedMap κ β} {a : κ} {v : β} :
    (a, v) ∈ m.entries ↔ m.get? a = some v := by
  refine ⟨fun hmem => ?_, mem_of_lookup⟩
  obtain ⟨es, hsorted⟩ := m
  show lookup a es = some v
  induction es with
  | nil => cases hmem
  | cons e rest ih =>
    obtain ⟨hfirst, hrest⟩ := List.pairwise_cons.mp hsorted
    rcases List.mem_cons.mp hmem with rfl | hlater
    · rw [lookup, if_pos rfl]
    · -- A later key ranks higher, so the first one is not the key in question.
      rw [lookup, if_neg (Nat.ne_of_gt (hfirst _ hlater))]
      exact ih hrest hlater

/-- What is found is among the values. -/
theorem mem_values_of_get? {m : SortedMap κ β} {a : κ} {v : β} (h : m.get? a = some v) :
    v ∈ m.values := List.mem_map_of_mem (mem_of_lookup h)

/-- **Look-up tells maps apart.** -/
theorem ext_get? {m n : SortedMap κ β} (h : ∀ a, m.get? a = n.get? a) : m = n := by
  let before : κ × β → κ × β → Prop := fun e f => rank e.1 < rank f.1
  have : Std.Irrefl before := ⟨fun e => Nat.lt_irrefl (rank e.1)⟩
  have : Std.Antisymm before := ⟨fun _ _ hef hfe => absurd hef (Nat.lt_asymm hfe)⟩
  refine ext (List.Pairwise.eq_of_mem_iff (r := before) m.sorted n.sorted fun e => ?_)
  rw [mem_entries_iff, mem_entries_iff, h]

/-! ### Sizes -/

/-- Putting in a key adds one entry or none. -/
theorem length_place (k : κ) (v : β) (es : List (κ × β)) :
    es.length ≤ (place k v es).length ∧ (place k v es).length ≤ es.length + 1 := by
  induction es with
  | nil => exact ⟨Nat.zero_le _, Nat.le_refl _⟩
  | cons e rest ih =>
    unfold place
    split
    · exact ⟨Nat.le_succ _, Nat.le_refl _⟩
    split
    · exact ⟨Nat.le_refl _, Nat.le_succ _⟩
    · exact ⟨Nat.succ_le_succ ih.1, Nat.succ_le_succ ih.2⟩

/-- A map does not shrink when a key is set. -/
theorem size_le_size_insert (m : SortedMap κ β) (k : κ) (v : β) : m.size ≤ (m.insert k v).size :=
  (length_place k v m.entries).1

/-- It grows by one entry at most. -/
theorem size_insert_le (m : SortedMap κ β) (k : κ) (v : β) : (m.insert k v).size ≤ m.size + 1 :=
  (length_place k v m.entries).2

/-- It does not grow when a key is erased. -/
theorem size_erase_le (m : SortedMap κ β) (k : κ) : (m.erase k).size ≤ m.size :=
  List.length_filter_le _ _

/-- A map has at most one entry of a key. -/
theorem size_le_size_erase (m : SortedMap κ β) (k : κ) : m.size ≤ (m.erase k).size + 1 := by
  obtain ⟨es, hsorted⟩ := m
  show es.length ≤ (es.filter fun e => !decide (rank e.1 = rank k)).length + 1
  induction es with
  | nil => exact Nat.zero_le _
  | cons e rest ih =>
    obtain ⟨hfirst, hrest⟩ := List.pairwise_cons.mp hsorted
    by_cases hk : rank e.1 = rank k
    · -- The later keys rank higher, so all of them stay.
      have hstay : rest.filter (fun e => !decide (rank e.1 = rank k)) = rest :=
        List.filter_eq_self.mpr fun f hf => by simp [← hk, Nat.ne_of_gt (hfirst f hf)]
      rw [List.filter_cons_of_neg (by simp [hk]), hstay, List.length_cons]
    · rw [List.filter_cons_of_pos (by simp [hk]), List.length_cons, List.length_cons]
      exact Nat.succ_le_succ (ih hrest)

/-! ### Putting entries together -/

/-- What is listed after a key was put in was put in or listed before. -/
theorem mem_of_mem_place {k : κ} {v : β} {e : κ × β} {es : List (κ × β)} (h : e ∈ place k v es) :
    e = (k, v) ∨ e ∈ es := by
  induction es with
  | nil => exact .inl (List.mem_singleton.mp h)
  | cons p rest ih =>
    unfold place at h
    split at h
    · exact List.mem_cons.mp h
    split at h
    · exact (List.mem_cons.mp h).imp_right (List.mem_cons_of_mem p)
    · rcases List.mem_cons.mp h with rfl | hlater
      · exact .inr List.mem_cons_self
      · exact (ih hlater).imp_right (List.mem_cons_of_mem p)

/-- So it is after many keys. -/
theorem mem_of_mem_entries_foldl {e : κ × β} {es : List (κ × β)} {m : SortedMap κ β}
    (h : e ∈ (es.foldl (fun m e => m.insert e.1 e.2) m).entries) : e ∈ m.entries ∨ e ∈ es := by
  induction es generalizing m with
  | nil => exact .inl h
  | cons f rest ih =>
    rcases ih h with hplaced | hlater
    · rcases mem_of_mem_place hplaced with rfl | hold
      · exact .inr List.mem_cons_self
      · exact .inl hold
    · exact .inr (List.mem_cons_of_mem f hlater)

/-- A map that is put together lists nothing else. -/
theorem mem_of_mem_entries_ofList {e : κ × β} {es : List (κ × β)}
    (h : e ∈ (ofList es).entries) : e ∈ es :=
  (mem_of_mem_entries_foldl h).resolve_left List.not_mem_nil

/-- Entries with increasing keys, put into a map, are found there first. -/
theorem get?_foldl_insert {es : List (κ × β)} (hes : es.Pairwise fun e f => rank e.1 < rank f.1)
    (m : SortedMap κ β) (a : κ) :
    (es.foldl (fun m e => m.insert e.1 e.2) m).get? a = (lookup a es).or (m.get? a) := by
  induction es generalizing m with
  | nil => rfl
  | cons e rest ih =>
    obtain ⟨k, v⟩ := e
    obtain ⟨hfirst, hrest⟩ := List.pairwise_cons.mp hes
    rw [List.foldl_cons, ih hrest, get?_insert, lookup]
    by_cases hk : rank a = rank k
    · rw [if_pos hk, if_pos hk, lookup_eq_none_of_rank_lt fun f hf => hk ▸ hfirst f hf]
      rfl
    · rw [if_neg hk, if_neg hk]

/-- **A map is put together again from its entries.** -/
theorem ofList_entries (m : SortedMap κ β) : ofList m.entries = m := by
  refine ext_get? fun a => ?_
  rw [ofList, get?_foldl_insert m.sorted, get?_empty, Option.or_none]
  rfl

end TurtleCurves.SortedMap
