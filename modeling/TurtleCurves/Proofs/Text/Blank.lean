import Mathlib.Data.List.DropRight
import TurtleCurves.Text.Blank

namespace TurtleCurves.Text

/-!
# Trimmed texts

* `Trimmed` — neither end of a text is white space;
* `trimmed_trim` — trimming a text leaves one like that;
* `trim_eq_self_iff` — and changes no other text like that;
* `exists_blanks`, `trim_blanks` — what is trimmed off is white space, and all of it.
-/

/-- Neither end of the text is white space. -/
structure Trimmed (cs : List Char) : Prop where
  head : ∀ h : cs ≠ [], isBlank (cs.head h) = false
  last : ∀ h : cs ≠ [], isBlank (cs.getLast h) = false

instance (cs : List Char) : Decidable (Trimmed cs) :=
  decidable_of_iff
    ((∀ h : cs ≠ [], isBlank (cs.head h) = false) ∧ ∀ h : cs ≠ [], isBlank (cs.getLast h) = false)
    ⟨fun h => ⟨h.1, h.2⟩, fun h => ⟨h.head, h.last⟩⟩

theorem trimmed_singleton {c : Char} (h : isBlank c = false) : Trimmed [c] :=
  ⟨fun _ => h, fun _ => h⟩

/-! ### Trimming -/

theorem trimEnd_isPrefix (cs : List Char) : trimEnd cs <+: cs := List.rdropWhile_prefix isBlank cs

/-- Trimming only takes characters away. -/
theorem mem_of_mem_trim {c : Char} {cs : List Char} (h : c ∈ trim cs) : c ∈ cs :=
  (List.dropWhile_sublist isBlank).mem ((trimEnd_isPrefix (trimStart cs)).mem h)

/-- **Trimming leaves no white space at the ends.** -/
theorem trimmed_trim (cs : List Char) : Trimmed (trim cs) := by
  constructor
  · -- What is cut off at the end leaves the first character in its place.
    intro h
    have hstart : trimStart cs ≠ [] := fun hnil => h (by rw [trim, hnil]; rfl)
    have hfirst : (trim cs).head h = (trimStart cs).head hstart :=
      (trimEnd_isPrefix (trimStart cs)).head h
    rw [hfirst]
    exact List.head_dropWhile_not isBlank hstart
  · intro h
    exact Bool.eq_false_iff.mpr (List.rdropWhile_last_not isBlank (trimStart cs) h)

theorem trim_of_trimmed {cs : List Char} (h : Trimmed cs) : trim cs = cs := by
  have hstart : trimStart cs = cs := by
    refine List.dropWhile_eq_self_iff.mpr fun hlen => ?_
    rw [← List.head_eq_getElem (List.ne_nil_of_length_pos hlen)]
    exact Bool.eq_false_iff.mp (h.head _)
  rw [trim, hstart]
  exact List.rdropWhile_eq_self_iff.mpr fun hne => Bool.eq_false_iff.mp (h.last hne)

/-- **A text is left alone** exactly when there is nothing to trim. -/
theorem trim_eq_self_iff {cs : List Char} : trim cs = cs ↔ Trimmed cs :=
  ⟨fun h => h ▸ trimmed_trim cs, trim_of_trimmed⟩

/-- Only white space is taken away. -/
theorem exists_blanks (cs : List Char) :
    ∃ before after : List Char, (∀ c ∈ before, isBlank c = true) ∧ (∀ c ∈ after, isBlank c = true) ∧
      cs = before ++ trim cs ++ after := by
  let reversed := (trimStart cs).reverse
  refine ⟨cs.takeWhile isBlank, (reversed.takeWhile isBlank).reverse,
    fun c hc => List.mem_takeWhile_imp hc,
    fun c hc => List.mem_takeWhile_imp (List.mem_reverse.mp hc), ?_⟩
  have hend : trim cs ++ (reversed.takeWhile isBlank).reverse = trimStart cs := by
    rw [trim, trimEnd, ← List.reverse_append, List.takeWhile_append_dropWhile, List.reverse_reverse]
  rw [List.append_assoc, hend, trimStart, List.takeWhile_append_dropWhile]

/-- White space around a text that neither begins nor ends with it is taken away. -/
theorem trim_blanks {before cs after : List Char} (hbefore : ∀ c ∈ before, isBlank c = true)
    (hafter : ∀ c ∈ after, isBlank c = true) (h : Trimmed cs) (hne : cs ≠ []) :
    trim (before ++ cs ++ after) = cs := by
  have hstart : trimStart (before ++ cs ++ after) = cs ++ after := by
    rw [trimStart, List.append_assoc, List.dropWhile_append_of_pos hbefore]
    obtain ⟨c, rest, rfl⟩ := List.exists_cons_of_ne_nil hne
    exact List.dropWhile_cons_of_neg (Bool.eq_false_iff.mp (h.head hne))
  have hend : trimEnd (cs ++ after) = trimEnd cs := by
    rw [trimEnd, List.reverse_append,
      List.dropWhile_append_of_pos fun c hc => hafter c (List.mem_reverse.mp hc)]
    rfl
  rw [trim, hstart, hend]
  exact List.rdropWhile_eq_self_iff.mpr fun hne => Bool.eq_false_iff.mp (h.last hne)

end TurtleCurves.Text
