import Mathlib.Data.List.Induction

namespace TurtleCurves

/-!
# The latest of its kind

What a history has led to often hangs on the latest entry of some kind, and on what has come since.

* `Latest P xs x after` — `x` is the last entry of `xs` that satisfies `P`, and `after` has come
  since;
* `latest_concat_of_pos`, `latest_concat_of_neg` — one more entry;
* `exists_latest` — there is one unless no entry satisfies `P`.
-/

variable {γ : Type} {P : γ → Prop} {xs after : List γ} {x y : γ}

/-- `x` is the last entry of the history `xs` that satisfies `P`, and `after` has come since. -/
structure Latest (P : γ → Prop) (xs : List γ) (x : γ) (after : List γ) : Prop where
  holds : P x
  since : ∀ y ∈ after, ¬ P y
  split : ∃ before, xs = before ++ x :: after

theorem not_latest_nil : ¬ Latest P [] x after := by
  rintro ⟨_, _, before, hsplit⟩
  simp at hsplit

/-- Where an entry can be in a history with one more at the end. -/
theorem concat_eq_append_cons {before : List γ} :
    xs ++ [y] = before ++ x :: after ↔
      xs = before ∧ y = x ∧ after = [] ∨ ∃ mid, xs = before ++ x :: mid ∧ after = mid ++ [y] := by
  constructor
  · intro hsplit
    -- Either `x` is the new last entry itself, or the new entry comes after it.
    rcases List.eq_nil_or_concat after with rfl | ⟨mid, z, rfl⟩
    · obtain ⟨hxs, hlast⟩ := List.append_inj' hsplit rfl
      exact .inl ⟨hxs, List.singleton_inj.mp hlast, rfl⟩
    · rw [List.concat_eq_append, ← List.cons_append, ← List.append_assoc] at hsplit
      obtain ⟨hxs, hlast⟩ := List.append_inj' hsplit rfl
      exact .inr ⟨mid, hxs, by rw [List.concat_eq_append, hlast]⟩
  · rintro (⟨rfl, rfl, rfl⟩ | ⟨mid, rfl, rfl⟩)
    · rfl
    · simp

/-- One more entry of the kind is the latest. -/
theorem latest_concat_of_pos (h : P y) : Latest P (xs ++ [y]) x after ↔ x = y ∧ after = [] := by
  constructor
  · rintro ⟨_, hsince, before, hsplit⟩
    rcases concat_eq_append_cons.mp hsplit with ⟨_, rfl, rfl⟩ | ⟨mid, _, rfl⟩
    · exact ⟨rfl, rfl⟩
    · -- Otherwise the new entry would have come since.
      exact absurd h (hsince y (by simp))
  · rintro ⟨rfl, rfl⟩
    exact ⟨h, by simp, xs, rfl⟩

/-- One more entry of another kind has come since. -/
theorem latest_concat_of_neg (h : ¬ P y) :
    Latest P (xs ++ [y]) x after ↔ ∃ mid, after = mid ++ [y] ∧ Latest P xs x mid := by
  constructor
  · rintro ⟨hx, hsince, before, hsplit⟩
    rcases concat_eq_append_cons.mp hsplit with ⟨_, rfl, rfl⟩ | ⟨mid, hxs, rfl⟩
    · exact absurd hx h
    · exact ⟨mid, rfl, hx, fun z hz => hsince z (List.mem_append_left _ hz), before, hxs⟩
  · rintro ⟨mid, rfl, hx, hsince, before, rfl⟩
    exact ⟨hx, List.forall_mem_append.mpr ⟨hsince, List.forall_mem_singleton.mpr h⟩, before,
      by simp⟩

/-- There is a latest entry unless there is none of the kind. -/
theorem exists_latest (P : γ → Prop) (xs : List γ) :
    (∀ y ∈ xs, ¬ P y) ∨ ∃ x after, Latest P xs x after := by
  induction xs using List.reverseRecOn with
  | nil => exact .inl (by simp)
  | append_singleton xs y ih =>
    by_cases hy : P y
    · exact .inr ⟨y, [], (latest_concat_of_pos hy).mpr ⟨rfl, rfl⟩⟩
    rcases ih with hnone | ⟨x, after, hlatest⟩
    · exact .inl (List.forall_mem_append.mpr ⟨hnone, List.forall_mem_singleton.mpr hy⟩)
    · exact .inr ⟨x, after ++ [y], (latest_concat_of_neg hy).mpr ⟨after, rfl, hlatest⟩⟩

end TurtleCurves
