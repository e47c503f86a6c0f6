import TurtleCurves.Grammar.Basic
import TurtleCurves.Proofs.SortedMap

namespace TurtleCurves.Rules

/-!
# Rewriting letter by letter

What a step of growth does to a word, said without the function that does it.

* `Rewrites`, `RewritesIn` — a word is read once from left to right, and each of its letters is
  replaced by its expansion or kept; and the same for a number of steps;
* `rewrites_iff`, `rewritesIn_iff` — every word is rewritten to exactly one word, and that is the
  one which `apply` and `derive` make.
-/

variable {rules : Rules} {u v w : Word} {c : Char} {n : Nat}

/-- The word is rewritten to the other one: a letter that a rule expands is replaced by what the
rule says, and any other letter is kept. -/
inductive Rewrites (rules : Rules) : Word → Word → Prop
  | nil : Rewrites rules [] []
  | expand {c : Char} {u v w : Word} :
      (c, u) ∈ rules.entries → Rewrites rules v w → Rewrites rules (c :: v) (u ++ w)
  | keep {c : Char} {v w : Word} :
      c ∉ rules.keys → Rewrites rules v w → Rewrites rules (c :: v) (c :: w)

/-- The word is rewritten to the other one in a number of steps. -/
inductive RewritesIn (rules : Rules) : Nat → Word → Word → Prop
  | zero (w : Word) : RewritesIn rules 0 w w
  | succ {n : Nat} {u v w : Word} :
      RewritesIn rules n u v → Rewrites rules v w → RewritesIn rules (n + 1) u w

theorem expand_of_mem (h : (c, u) ∈ rules.entries) : rules.expand c = u := by
  rw [Rules.expand, SortedMap.mem_entries_iff.mp h, Option.getD_some]

theorem expand_of_not_mem (h : c ∉ rules.keys) : rules.expand c = [c] := by
  have hnone : rules.get? c = none := by
    rwa [SortedMap.mem_keys, Option.not_isSome_iff_eq_none] at h
  rw [Rules.expand, hnone, Option.getD_none]

theorem apply_cons (rules : Rules) (c : Char) (w : Word) :
    rules.apply (c :: w) = rules.expand c ++ rules.apply w := rfl

/-- Every letter is either expanded by a rule or kept. -/
theorem rewrites_apply (rules : Rules) (w : Word) : rules.Rewrites w (rules.apply w) := by
  induction w with
  | nil => exact .nil
  | cons c w ih =>
    rw [apply_cons]
    cases hget : rules.get? c with
    | none =>
      have hnot : c ∉ rules.keys := by rw [SortedMap.mem_keys, hget]; exact Bool.false_ne_true
      rw [expand_of_not_mem hnot]
      exact .keep hnot ih
    | some u =>
      have hmem : (c, u) ∈ rules.entries := SortedMap.mem_entries_iff.mpr hget
      rw [expand_of_mem hmem]
      exact .expand hmem ih

/-- **One step.** A word is rewritten to exactly one word. -/
theorem rewrites_iff : rules.Rewrites v w ↔ rules.apply v = w := by
  constructor
  · intro h
    induction h with
    | nil => rfl
    | expand hmem _ ih => rw [← ih, apply_cons, expand_of_mem hmem]
    | keep hnot _ ih => rw [← ih, apply_cons, expand_of_not_mem hnot, List.singleton_append]
  · rintro rfl
    exact rewrites_apply rules v

/-- **A number of steps.** They lead to exactly one word as well. -/
theorem rewritesIn_iff : rules.RewritesIn n v w ↔ rules.derive v n = w := by
  constructor
  · intro h
    induction h with
    | zero w => rfl
    | succ _ hstep ih => rw [Rules.derive, ih, rewrites_iff.mp hstep]
  · rintro rfl
    induction n with
    | zero => exact .zero v
    | succ n ih => exact .succ ih (rewrites_apply rules _)

end TurtleCurves.Rules
