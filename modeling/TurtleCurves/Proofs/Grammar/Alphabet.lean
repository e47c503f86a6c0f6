import TurtleCurves.Grammar.Basic
import TurtleCurves.Proofs.SortedMap

namespace TurtleCurves

/-!
# The alphabet of a grammar

The alphabet of a grammar is read off its seed and its expansions once; words that are grown from
the seed draw with no other letters.

* `Word.isStroke_iff`, `Word.mem_capitals` — the letters that draw are `A` to `Z`;
* `Word.mem_letters`, `Word.pairwise_letters` — which letters of some words draw, each listed once
  and in order;
* `Grammar.Covers` — every letter of a word that draws is in the alphabet;
* `Grammar.Covers.apply` — one step keeps that, and `Grammar.covers_derive` — so do all.
-/

namespace Word

/-! ### Letters that draw -/

/-- The letters that draw are the capitals. -/
theorem isStroke_iff {c : Char} : isStroke c = true ↔ 'A' ≤ c ∧ c ≤ 'Z' := by
  show decide ('A' ≤ c ∧ c ≤ 'Z') = true ↔ _
  rw [decide_eq_true_eq]

/-- All of them are listed. -/
theorem mem_capitals {c : Char} : c ∈ capitals ↔ isStroke c = true := by
  rw [isStroke_iff, capitals, List.mem_map]
  constructor
  · rintro ⟨i, hi, rfl⟩
    have hall : ∀ i ∈ List.range 26, 'A' ≤ Char.ofNat (65 + i) ∧ Char.ofNat (65 + i) ≤ 'Z' := by
      decide
    exact hall i hi
  · rintro ⟨hlo, hhi⟩
    have hlo : 65 ≤ c.toNat := hlo
    have hhi : c.toNat ≤ 90 := hhi
    -- The place of a letter in the alphabet is its distance from `A`.
    refine ⟨c.toNat - 65, List.mem_range.mpr (by omega), ?_⟩
    rw [Nat.add_sub_cancel' hlo, Char.ofNat_toNat]

/-- A letter is listed when it draws and occurs in one of the words. -/
theorem mem_letters {c : Char} {ws : List Word} :
    c ∈ letters ws ↔ isStroke c = true ∧ ∃ w ∈ ws, c ∈ w := by
  simp only [letters, List.mem_filter, mem_capitals, List.any_eq_true, List.contains_iff_mem]

/-- Letters are listed in order and none twice. -/
theorem pairwise_letters (ws : List Word) : (letters ws).Pairwise (· < ·) := by
  have hcapitals : capitals.Pairwise (· < ·) := by decide
  exact hcapitals.filter _

end Word

/-! ### Grown words -/

namespace Grammar

variable {α : Type} {g : Grammar α} {w : Word}

/-- The alphabet has the letters that draw, of the seed and of the expansions. -/
theorem mem_alphabet {c : Char} :
    c ∈ g.alphabet ↔ Word.isStroke c = true ∧ (c ∈ g.seed ∨ ∃ w ∈ g.rules.values, c ∈ w) := by
  rw [alphabet, Word.mem_letters, List.exists_mem_cons_iff]

/-- Every letter of the word that draws is in the alphabet. -/
def Covers (g : Grammar α) (w : Word) : Prop :=
  ∀ c ∈ w, Word.isStroke c = true → c ∈ g.alphabet

/-- It covers the seed. -/
theorem covers_seed (g : Grammar α) : g.Covers g.seed :=
  fun _ hc hdraws => mem_alphabet.mpr ⟨hdraws, .inl hc⟩

/-- **One step.** A letter of the expanded word was there before or stands in an expansion. -/
theorem Covers.apply (h : g.Covers w) : g.Covers (g.rules.apply w) := by
  intro c hc hdraws
  obtain ⟨b, hb, hc⟩ := List.mem_flatMap.mp hc
  unfold Rules.expand at hc
  cases hget : g.rules.get? b with
  | none =>
    rw [hget, Option.getD_none, List.mem_singleton] at hc
    exact h c (hc ▸ hb) hdraws
  | some expansion =>
    rw [hget, Option.getD_some] at hc
    have hvalue := SortedMap.mem_values_of_get? hget
    exact mem_alphabet.mpr ⟨hdraws, .inr ⟨expansion, hvalue, hc⟩⟩

/-- **Grown words** draw with letters of the alphabet only. -/
theorem covers_derive (g : Grammar α) (n : Nat) : g.Covers (g.rules.derive g.seed n) := by
  induction n with
  | zero => exact g.covers_seed
  | succ n ih => exact ih.apply

end Grammar

end TurtleCurves
