import TurtleCurves.Grammar.Basic
import TurtleCurves.Proofs.SortedMap

namespace TurtleCurves

/-!
# How much longer a step makes a word

Lengths are counted in bytes, and a letter may take several.  One step replaces a letter by its
expansion, so that the longest expansion bounds what becomes of one byte.

* `Rules.longest` — the length of the longest expansion, and `Rules.longest_le_iff`, the law that
  says so;
* `Rules.byteLength_expand_le` — one letter;
* `Rules.byteLength_apply_le` — a whole word becomes at most `max 1 longest` times as long.
-/

namespace Rules

/-- The length of the longest expansion in bytes; `0` without rules. -/
def longest (rules : Rules) : Nat := (rules.values.map Word.byteLength).foldr max 0

/-- **The longest expansion** is the least bound of all of them. -/
theorem longest_le_iff {rules : Rules} {n : Nat} :
    rules.longest ≤ n ↔ ∀ w ∈ rules.values, w.byteLength ≤ n := by
  unfold longest
  induction rules.values with
  | nil => simp
  | cons w ws ih => simp only [List.map_cons, List.foldr_cons, List.forall_mem_cons, ← ih]; omega

theorem byteLength_le_longest {rules : Rules} {w : Word} (hw : w ∈ rules.values) :
    w.byteLength ≤ rules.longest := longest_le_iff.mp (Nat.le_refl _) w hw

/-- **One letter.** It takes at least one byte, and its expansion is none of the longer ones. -/
theorem byteLength_expand_le (rules : Rules) (c : Char) :
    (rules.expand c).byteLength ≤ c.utf8Size * max 1 rules.longest := by
  have hletter : 1 ≤ c.utf8Size := c.utf8Size_pos
  unfold expand
  cases hget : rules.get? c with
  | none =>
    -- A letter without an expansion stays, and takes as many bytes as before.
    calc Word.byteLength [c] = c.utf8Size * 1 := by simp
      _ ≤ c.utf8Size * max 1 rules.longest := Nat.mul_le_mul_left _ (Nat.le_max_left _ _)
  | some w =>
    have hlongest : w.byteLength ≤ rules.longest :=
      byteLength_le_longest (SortedMap.mem_values_of_get? hget)
    calc w.byteLength ≤ 1 * max 1 rules.longest := by omega
      _ ≤ c.utf8Size * max 1 rules.longest := Nat.mul_le_mul_right _ hletter

/-- **One step.** No byte of a word becomes more than the longest expansion. -/
theorem byteLength_apply_le (rules : Rules) (w : Word) :
    (rules.apply w).byteLength ≤ w.byteLength * max 1 rules.longest := by
  induction w with
  | nil => simp
  | cons c w ih =>
    have hletter := rules.byteLength_expand_le c
    have hcons : rules.apply (c :: w) = rules.expand c ++ rules.apply w := rfl
    rw [hcons, Word.byteLength_append, Word.byteLength_cons, Nat.add_mul]
    omega

end Rules

end TurtleCurves
