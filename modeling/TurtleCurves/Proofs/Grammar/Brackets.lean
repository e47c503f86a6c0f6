import TurtleCurves.Grammar.Basic
import TurtleCurves.Proofs.SortedMap

namespace TurtleCurves

/-!
# Brackets in grown words

Whether the brackets of a word match is seen by counting the open ones from left to right.  A
grammar that leaves brackets alone and expands letters to words with matching brackets does not
disturb that count.

* `Word.depthAfter?`, `Word.depth?` — how many brackets are open after a character and after a
  word, unless a closing one finds none open;
* `Word.Balanced` — the brackets of a word match, said of its beginnings and their counts, and
  `Word.balanced_iff`, the same as a count that ends where it began;
* `Grammar.Balanced` — the brackets of the seed and of every expansion match, and brackets are not
  expanded;
* `Grammar.Balanced.depth?_apply` — one step: the count along the expanded word ends as along
  the word;
* `Grammar.Balanced.derive` — hence the brackets of every grown word match.
-/

/-! ### Open brackets -/

namespace Word

/-- How many brackets are open after a character, when `n` are before it; `none` for a closing
bracket while none is open. -/
def depthAfter? (n : Nat) (c : Char) : Option Nat :=
  if c = '[' then some (n + 1)
  else if c = ']' then (if n = 0 then none else some (n - 1))
  else some n

/-- How many brackets are open after a word, when `n` are before it; `none` if one of its closing
brackets comes while none is open. -/
def depth? (n : Nat) : Word → Option Nat
  | [] => some n
  | c :: w => (depthAfter? n c).bind fun m => depth? m w

@[simp] theorem depthAfter?_open (n : Nat) : depthAfter? n '[' = some (n + 1) := rfl

@[simp] theorem depthAfter?_close_zero : depthAfter? 0 ']' = none := rfl

@[simp] theorem depthAfter?_close_succ (n : Nat) : depthAfter? (n + 1) ']' = some n := rfl

/-- Any other character opens and closes nothing. -/
theorem depthAfter?_of_ne {c : Char} (hopen : c ≠ '[') (hclose : c ≠ ']') (n : Nat) :
    depthAfter? n c = some n := by
  rw [depthAfter?, if_neg hopen, if_neg hclose]

theorem depth?_singleton (n : Nat) (c : Char) : depth? n [c] = depthAfter? n c :=
  Option.bind_fun_some _

/-- Two words are counted one after the other. -/
theorem depth?_append (n : Nat) (v w : Word) :
    depth? n (v ++ w) = (depth? n v).bind fun m => depth? m w := by
  induction v generalizing n with
  | nil => rfl
  | cons c v ih => simp only [List.cons_append, depth?, ih, Option.bind_assoc]

/-- **The count in numbers.** It goes through exactly when no beginning of the word closes more
brackets than are open, and then it ends at what the numbers of brackets say. -/
theorem depth?_eq_some_iff {n m : Nat} {w : Word} :
    depth? n w = some m ↔
      (∀ v, v <+: w → v.count ']' ≤ n + v.count '[') ∧ m + w.count ']' = n + w.count '[' := by
  induction w generalizing n with
  | nil =>
    simp only [depth?, Option.some.injEq, List.prefix_nil, forall_eq, List.count_nil]
    omega
  | cons c w ih =>
    -- The beginnings are the empty word and, behind `c`, the beginnings of the rest.
    have hbegin : (∀ v, v <+: c :: w → v.count ']' ≤ n + v.count '[') ↔
        ∀ v, v <+: w → (c :: v).count ']' ≤ n + (c :: v).count '[' := by
      constructor
      · intro h v hv
        exact h (c :: v) (List.prefix_cons_iff.mpr (.inr ⟨v, rfl, hv⟩))
      · intro h v hv
        obtain rfl | ⟨u, rfl, hu⟩ := List.prefix_cons_iff.mp hv
        · exact Nat.zero_le _
        · exact h u hu
    rw [hbegin, depth?]
    by_cases hopen : c = '['
    · subst hopen
      simp only [depthAfter?_open, Option.bind_some, ih, List.count_cons_self,
        List.count_cons_of_ne (show '[' ≠ ']' by decide)]
      exact and_congr (forall₂_congr fun v _ => by omega) (by omega)
    by_cases hclose : c = ']'
    · subst hclose
      simp only [List.count_cons_self, List.count_cons_of_ne (show ']' ≠ '[' by decide)]
      cases n with
      | zero =>
        -- The bracket alone is a beginning that closes one too many.
        refine iff_of_false (by simp) fun h => ?_
        have hfirst := h.1 [] List.nil_prefix
        simp at hfirst
      | succ n =>
        simp only [depthAfter?_close_succ, Option.bind_some, ih]
        exact and_congr (forall₂_congr fun v _ => by omega) (by omega)
    · simp only [depthAfter?_of_ne hopen hclose, Option.bind_some, ih,
        List.count_cons_of_ne hopen, List.count_cons_of_ne hclose]

/-- The brackets of a word match: no beginning closes more of them than it opens, and the whole
word closes as many as it opens. -/
structure Balanced (w : Word) : Prop where
  closing_le (v : Word) : v <+: w → v.count ']' ≤ v.count '['
  closing_eq : w.count ']' = w.count '['

/-- The brackets of a word match exactly when the count of open ones ends where it began. -/
theorem balanced_iff {w : Word} : w.Balanced ↔ depth? 0 w = some 0 := by
  simp only [depth?_eq_some_iff, Nat.zero_add]
  exact ⟨fun h => ⟨h.closing_le, h.closing_eq⟩, fun h => ⟨h.1, h.2⟩⟩

instance (w : Word) : Decidable w.Balanced := decidable_of_iff _ balanced_iff.symm

/-- A word with matching brackets leaves every count where it was. -/
theorem Balanced.depth?_eq {w : Word} (h : w.Balanced) (n : Nat) : depth? n w = some n := by
  refine depth?_eq_some_iff.mpr ⟨fun v hv => ?_, ?_⟩
  · exact Nat.le_add_left_of_le (h.closing_le v hv)
  · rw [h.closing_eq]

end Word

/-! ### Grammars that match brackets -/

/-- The brackets of the seed and of every expansion match, and brackets are not expanded. -/
structure Grammar.Balanced {α : Type} (g : Grammar α) : Prop where
  seed : g.seed.Balanced
  expansions : ∀ w ∈ g.rules.values, Word.Balanced w
  open_notMem : '[' ∉ g.rules.keys
  close_notMem : ']' ∉ g.rules.keys

namespace Grammar.Balanced

variable {α : Type} {g : Grammar α}

/-- A letter leaves the count as its expansion does: a bracket stays, and the expansion of any
other letter matches. -/
theorem depth?_expand (h : g.Balanced) (n : Nat) (c : Char) :
    Word.depth? n (g.rules.expand c) = Word.depthAfter? n c := by
  cases hget : g.rules.get? c with
  | none =>
    rw [Rules.expand, hget, Option.getD_none, Word.depth?_singleton]
  | some w =>
    have hkey : c ∈ g.rules.keys := SortedMap.mem_keys.mpr (by rw [hget]; rfl)
    have hopen : c ≠ '[' := fun e => h.open_notMem (e ▸ hkey)
    have hclose : c ≠ ']' := fun e => h.close_notMem (e ▸ hkey)
    have hvalue := SortedMap.mem_values_of_get? hget
    rw [Rules.expand, hget, Option.getD_some, (h.expansions w hvalue).depth?_eq,
      Word.depthAfter?_of_ne hopen hclose]

/-- **One step.** The count along the expanded word ends as along the word. -/
theorem depth?_apply (h : g.Balanced) (n : Nat) (w : Word) :
    Word.depth? n (g.rules.apply w) = Word.depth? n w := by
  induction w generalizing n with
  | nil => rfl
  | cons c w ih =>
    have hcons : g.rules.apply (c :: w) = g.rules.expand c ++ g.rules.apply w :=
      List.flatMap_cons
    rw [hcons, Word.depth?_append, h.depth?_expand, Word.depth?]
    simp only [ih]

/-- **Grown words.** The brackets match after every number of steps. -/
theorem derive (h : g.Balanced) (n : Nat) : (g.rules.derive g.seed n).Balanced := by
  induction n with
  | zero => exact h.seed
  | succ n ih =>
    rw [Word.balanced_iff] at ih ⊢
    rw [Rules.derive, h.depth?_apply, ih]

end Grammar.Balanced

end TurtleCurves
