namespace TurtleCurves

/-!
# Sorted maps

Finite maps with one value per key, kept in the order of the keys.

* `Ranked κ` — keys that are ordered by a natural number of their own;
* `SortedMap κ β` — the map; its entries are strictly increasing, so equal maps have equal
  entries;
* `get?`, `insert`, `erase`, `filterKeys` — look up and change, each with its law through
  `get?`.
-/

/-- Keys are told apart and ordered by their rank. -/
class Ranked (κ : Type) where
  rank : κ → Nat
  rank_inj : ∀ {a b : κ}, rank a = rank b → a = b

instance : Ranked Nat := ⟨id, id⟩

instance : Ranked Char := ⟨Char.toNat, fun h => Char.toNat_inj.mp h⟩

open Ranked (rank)

/-- A finite map whose entries are listed by increasing key. -/
structure SortedMap (κ β : Type) [Ranked κ] where
  entries : List (κ × β)
  sorted : entries.Pairwise fun a b => rank a.1 < rank b.1

namespace SortedMap

variable {κ β : Type} [Ranked κ]

@[ext] theorem ext {m n : SortedMap κ β} (h : m.entries = n.entries) : m = n := by
  cases m; cases n; cases h; rfl

instance [DecidableEq κ] [DecidableEq β] : DecidableEq (SortedMap κ β) := fun m n =>
  if h : m.entries = n.entries then isTrue (ext h) else isFalse fun e => h (congrArg entries e)

/-- The map without entries. -/
def empty : SortedMap κ β := ⟨[], List.Pairwise.nil⟩

instance : EmptyCollection (SortedMap κ β) := ⟨empty⟩

instance : Inhabited (SortedMap κ β) := ⟨empty⟩

/-- The number of entries. -/
def size (m : SortedMap κ β) : Nat := m.entries.length

/-- The keys in order. -/
def keys (m : SortedMap κ β) : List κ := m.entries.map Prod.fst

/-- The values in the order of their keys. -/
def values (m : SortedMap κ β) : List β := m.entries.map Prod.snd

/-! ### Look-up -/

/-- The value of `k` in a list of entries. -/
def lookup (k : κ) : List (κ × β) → Option β
  | [] => none
  | (k', v) :: rest => if rank k = rank k' then some v else lookup k rest

/-- The value of `k`. -/
def get? (m : SortedMap κ β) (k : κ) : Option β := lookup k m.entries

/-- `k` has a value. -/
def contains (m : SortedMap κ β) (k : κ) : Bool := (m.get? k).isSome

@[simp] theorem get?_empty (k : κ) : (∅ : SortedMap κ β).get? k = none := rfl

/-! ### Insertion -/

/-- The entries with the value of `k` set to `v`. -/
def place (k : κ) (v : β) : List (κ × β) → List (κ × β)
  | [] => [(k, v)]
  | (k', v') :: rest =>
    if rank k < rank k' then (k, v) :: (k', v') :: rest
    else if rank k = rank k' then (k, v) :: rest
    else (k', v') :: place k v rest

/-- Putting in the first key replaces its value. -/
theorem place_self (k : κ) (v w : β) (rest : List (κ × β)) :
    place k v ((k, w) :: rest) = (k, v) :: rest := by
  simp [place]

/-- A key behind the first one is put in among the rest. -/
theorem place_of_lt {k k' : κ} (h : rank k' < rank k) (v w : β) (rest : List (κ × β)) :
    place k v ((k', w) :: rest) = (k', w) :: place k v rest := by
  rw [place, if_neg (Nat.lt_asymm h), if_neg (Nat.ne_of_gt h)]

/-- What is below the key and all entries stays below them. -/
theorem rank_lt_of_mem_place {k a : κ} {v : β} {es : List (κ × β)} {e : κ × β}
    (he : e ∈ place k v es) (hk : rank a < rank k) (hes : ∀ e ∈ es, rank a < rank e.1) :
    rank a < rank e.1 := by
  induction es with
  | nil => simp [place] at he; rw [he]; exact hk
  | cons p rest ih =>
    obtain ⟨k', v'⟩ := p
    unfold place at he
    split at he
    · rcases List.mem_cons.1 he with rfl | h
      · exact hk
      · exact hes e h
    -- The entry is placed in front, in place of its equal, or further on.
    · split at he
      · rcases List.mem_cons.1 he with rfl | h
        · exact hk
        · exact hes e (List.mem_cons_of_mem _ h)
      · rcases List.mem_cons.1 he with rfl | h
        · exact hes _ List.mem_cons_self
        · exact ih h fun e h => hes e (List.mem_cons_of_mem _ h)

/-- **The order is kept.** -/
theorem sorted_place (k : κ) (v : β) {es : List (κ × β)}
    (h : es.Pairwise fun a b => rank a.1 < rank b.1) :
    (place k v es).Pairwise fun a b => rank a.1 < rank b.1 := by
  induction es with
  | nil => simp [place]
  | cons p rest ih =>
    obtain ⟨k', v'⟩ := p
    have hrest := List.pairwise_cons.1 h
    unfold place
    -- The key comes before the first entry, is that of the first entry, or comes later.
    split
    · next hlt =>
      refine List.pairwise_cons.2 ⟨fun e he => ?_, h⟩
      rcases List.mem_cons.1 he with rfl | he
      · exact hlt
      · exact Nat.lt_trans hlt (hrest.1 e he)
    · split
      · next heq =>
        exact List.pairwise_cons.2 ⟨fun e he => heq ▸ hrest.1 e he, hrest.2⟩
      · next hlt heq =>
        have hgt : rank k' < rank k := Nat.lt_of_le_of_ne (Nat.le_of_not_lt hlt) (Ne.symm heq)
        exact List.pairwise_cons.2
          ⟨fun e he => rank_lt_of_mem_place he hgt hrest.1, ih hrest.2⟩

/-- The map with the value of `k` set to `v`. -/
def insert (m : SortedMap κ β) (k : κ) (v : β) : SortedMap κ β :=
  ⟨place k v m.entries, sorted_place k v m.sorted⟩

/-- A key that is looked up after putting one in. -/
theorem lookup_place (k a : κ) (v : β) (es : List (κ × β)) :
    lookup a (place k v es) = if rank a = rank k then some v else lookup a es := by
  induction es with
  | nil => simp [place, lookup]
  | cons p rest ih =>
    obtain ⟨k', v'⟩ := p
    unfold place
    split
    · simp [lookup]
    · split
      · next heq => simp only [lookup]; split <;> simp_all
      · next hne => simp only [lookup, ih]; split <;> split <;> simp_all

/-- Only the inserted key changes its value. -/
theorem get?_insert (m : SortedMap κ β) (k a : κ) (v : β) :
    (m.insert k v).get? a = if rank a = rank k then some v else m.get? a :=
  lookup_place k a v m.entries

@[simp] theorem get?_insert_self (m : SortedMap κ β) (k : κ) (v : β) :
    (m.insert k v).get? k = some v := by simp [get?_insert]

/-- The entries of a list put in one after the other, so that a later one replaces an earlier. -/
def ofList (es : List (κ × β)) : SortedMap κ β :=
  es.foldl (fun m e => m.insert e.1 e.2) ∅

/-! ### Removal -/

/-- The entries whose keys satisfy `p`. -/
def filterKeys (m : SortedMap κ β) (p : κ → Bool) : SortedMap κ β :=
  ⟨m.entries.filter fun e => p e.1, m.sorted.filter _⟩

/-- The map without the key `k`. -/
def erase (m : SortedMap κ β) (k : κ) : SortedMap κ β :=
  m.filterKeys fun a => !decide (rank a = rank k)

/-- A key that is looked up after leaving some out. -/
theorem lookup_filter (p : κ → Bool) (a : κ) (es : List (κ × β)) :
    lookup a (es.filter fun e => p e.1) = if p a then lookup a es else none := by
  induction es with
  | nil => simp [lookup]
  | cons e rest ih =>
    obtain ⟨k, v⟩ := e
    -- An entry that is left out was that of the key, and then there is no other; or it was not.
    by_cases hk : rank a = rank k
    · have := Ranked.rank_inj hk
      subst this
      by_cases hp : p a <;> simp [List.filter, hp, lookup, ih]
    · by_cases hp : p k <;> simp [List.filter, hp, lookup, hk, ih]

/-- Exactly the keys that satisfy `p` keep their values. -/
theorem get?_filterKeys (m : SortedMap κ β) (p : κ → Bool) (a : κ) :
    (m.filterKeys p).get? a = if p a then m.get? a else none :=
  lookup_filter p a m.entries

/-- Only the erased key loses its value. -/
theorem get?_erase (m : SortedMap κ β) (k a : κ) :
    (m.erase k).get? a = if rank a = rank k then none else m.get? a := by
  simp [erase, get?_filterKeys]

/-! ### Equality -/

/-- A key is found exactly if it is listed. -/
theorem lookup_isSome_iff {a : κ} {es : List (κ × β)} :
    (lookup a es).isSome ↔ a ∈ es.map Prod.fst := by
  induction es with
  | nil => simp [lookup]
  | cons e rest ih =>
    obtain ⟨k, v⟩ := e
    unfold lookup
    split
    · next h => simp [Ranked.rank_inj h]
    · next h =>
      have hne : a ≠ k := fun e => h (congrArg rank e)
      simp [ih, hne]

/-- What is looked up is listed. -/
theorem mem_of_lookup {a : κ} {v : β} {es : List (κ × β)} (h : lookup a es = some v) :
    (a, v) ∈ es := by
  induction es with
  | nil => cases h
  | cons e rest ih =>
    obtain ⟨k, w⟩ := e
    unfold lookup at h
    split at h
    · next heq =>
      rw [Ranked.rank_inj heq, Option.some.inj h]
      exact List.mem_cons_self
    · exact List.mem_cons_of_mem _ (ih h)

/-- A key has a value exactly when it is listed. -/
theorem mem_keys {m : SortedMap κ β} {a : κ} : a ∈ m.keys ↔ (m.get? a).isSome :=
  lookup_isSome_iff.symm

end SortedMap

end TurtleCurves
