import TurtleCurves.Proofs.Grammar.Brackets

namespace TurtleCurves.Word

/-!
# Brackets without a partner

A reader that passes over closing brackets while none is open can read every word.  How many
brackets are open for it in the end is how many opening brackets of the word have no partner.

* `Balanced.append`, `Balanced.enclose` — words with matching brackets are closed under joining
  and under brackets around them;
* `Closes`, `unclosed` — an opening bracket has a partner in the word behind it, and how many
  opening brackets have none;
* `strays`, `depth?_eq_none_iff` — how many closing brackets have none, which is how many open
  ones the strict count must begin with;
* `level`, `level_zero` — the count that passes over stray brackets, and where it ends.
-/

/-! ### Words with matching brackets -/

theorem balanced_nil : Balanced [] := balanced_iff.mpr rfl

/-- Words that match, one after the other. -/
theorem Balanced.append {v w : Word} (hv : v.Balanced) (hw : w.Balanced) : (v ++ w).Balanced := by
  rw [balanced_iff, depth?_append, hv.depth?_eq, Option.bind_some, hw.depth?_eq]

/-- A word that matches, in brackets. -/
theorem Balanced.enclose {w : Word} (h : w.Balanced) : Balanced ('[' :: w ++ [']']) := by
  rw [balanced_iff, depth?_append, depth?, depthAfter?_open, Option.bind_some, h.depth?_eq]
  rfl

/-! ### Partners -/

/-- A bracket opened right before the word is closed in it: the closing one comes behind a
beginning whose brackets match. -/
def Closes (w : Word) : Prop := ∃ u v, w = u ++ ']' :: v ∧ u.Balanced

/-- Where the strict count stops: at a closing bracket that finds none open. -/
theorem exists_of_depth?_eq_none {n : Nat} {w : Word} (h : depth? n w = none) :
    ∃ u v, w = u ++ ']' :: v ∧ depth? n u = some 0 := by
  induction w generalizing n with
  | nil => cases h
  | cons c w ih =>
    rw [depth?] at h
    cases hc : depthAfter? n c with
    | none =>
      -- Of all characters only a closing bracket can be refused, and only while none is open.
      have hstop : c = ']' ∧ n = 0 := by
        unfold depthAfter? at hc
        split_ifs at hc with _ hclose hzero
        exact ⟨hclose, hzero⟩
      obtain ⟨rfl, rfl⟩ := hstop
      exact ⟨[], w, rfl, rfl⟩
    | some m =>
      rw [hc, Option.bind_some] at h
      obtain ⟨u, v, rfl, hu⟩ := ih h
      refine ⟨c :: u, v, rfl, ?_⟩
      rw [depth?, hc, Option.bind_some, hu]

/-- A word closes more than it opens exactly if the count fails. -/
theorem closes_iff {w : Word} : w.Closes ↔ depth? 0 w = none := by
  constructor
  · rintro ⟨u, v, rfl, hu⟩
    rw [depth?_append, hu.depth?_eq]
    rfl
  · intro h
    obtain ⟨u, v, hw, hu⟩ := exists_of_depth?_eq_none h
    exact ⟨u, v, hw, balanced_iff.mpr hu⟩

instance (w : Word) : Decidable w.Closes := decidable_of_iff _ closes_iff.symm

/-- How many opening brackets of a word are never closed. -/
def unclosed : Word → Nat
  | [] => 0
  | c :: w => (if c = '[' ∧ ¬ Closes w then 1 else 0) + unclosed w

/-- How many closing brackets of a word close nothing. -/
def strays : Word → Nat
  | [] => 0
  | c :: w => if c = '[' then strays w - 1 else if c = ']' then strays w + 1 else strays w

/-- The strict count stops exactly when it begins with fewer open brackets than there are
strays. -/
theorem depth?_eq_none_iff {n : Nat} {w : Word} : depth? n w = none ↔ n < strays w := by
  induction w generalizing n with
  | nil => simp only [depth?, strays, reduceCtorEq, Nat.not_lt_zero]
  | cons c w ih =>
    rw [depth?, strays]
    by_cases hopen : c = '['
    · subst hopen
      rw [depthAfter?_open, Option.bind_some, ih, if_pos rfl]
      omega
    by_cases hclose : c = ']'
    · subst hclose
      rw [if_neg hopen, if_pos rfl]
      -- A bracket that closes nothing ends the count here and is the next stray one.
      cases n with
      | zero => simp only [depthAfter?_close_zero, Option.bind_none, Nat.zero_lt_succ]
      | succ n =>
        rw [depthAfter?_close_succ, Option.bind_some, ih]
        omega
    · rw [depthAfter?_of_ne hopen hclose, Option.bind_some, ih, if_neg hopen, if_neg hclose]

/-! ### The count that passes over strays -/

/-- How many brackets are open after a character; a closing one while none is open is passed
over. -/
def levelAfter (n : Nat) (c : Char) : Nat :=
  if c = '[' then n + 1 else if c = ']' then n - 1 else n

/-- How many brackets are open after a word, when `n` are before it. -/
def level (n : Nat) (w : Word) : Nat := w.foldl levelAfter n

/-- The strays use up open brackets from before the word, as far as there are any, and the
brackets that are never closed are left. -/
theorem level_eq (n : Nat) (w : Word) : level n w = n - strays w + unclosed w := by
  induction w generalizing n with
  | nil => rfl
  | cons c w ih =>
    show level (levelAfter n c) w = _
    rw [ih, strays, unclosed, levelAfter]
    by_cases hopen : c = '['
    · -- A bracket that is opened here is closed in the rest exactly when the rest has a stray.
      have hcloses : Closes w ↔ 0 < strays w := closes_iff.trans depth?_eq_none_iff
      simp only [hopen, if_true, true_and, hcloses]
      split_ifs <;> omega
    · simp only [hopen, if_false, false_and]
      split_ifs <;> omega

/-- From no open bracket on, the brackets that are never closed are left open. -/
theorem level_zero (w : Word) : level 0 w = unclosed w := by
  rw [level_eq, Nat.zero_sub, Nat.zero_add]

end TurtleCurves.Word
