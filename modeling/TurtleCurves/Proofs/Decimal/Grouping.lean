import TurtleCurves.Proofs.Decimal.Digits
import TurtleCurves.Proofs.Text.Joined

namespace TurtleCurves.Decimal

/-!
# Counts in groups of three

A count is read in groups: the first has one to three digits, every other has three.

* `InThirds first others` — a list in groups of that form;
* `exists_thirds_groupDigits` — the commas stand between such groups of the digits;
* `grouped_reading` — they can be read off the text of a count, and the count off the groups.
-/

/-- Groups of three, of which only the first may be shorter; it is never empty. -/
structure InThirds {β : Type} (first : List β) (others : List (List β)) : Prop where
  first_pos : 0 < first.length
  first_le : first.length ≤ 3
  others_eq : ∀ g ∈ others, g.length = 3

namespace InThirds

variable {β : Type} {first : List β} {others : List (List β)}

/-- What is in groups has the length of the first group, up to a multiple of three. -/
theorem length_flatten (h : InThirds first others) :
    (first :: others).flatten.length = first.length + 3 * others.length := by
  rw [List.flatten_cons, List.length_append, List.length_flatten,
    Text.map_length_of_width h.others_eq, List.sum_replicate_nat]
  omega

/-- The first group is full exactly when there is a multiple of three in all. -/
theorem full_iff (h : InThirds first others) :
    first.length = 3 ↔ (first :: others).flatten.length % 3 = 0 := by
  have hpos := h.first_pos
  have hle := h.first_le
  rw [h.length_flatten]
  omega

/-- A group by itself, with one element. -/
theorem single (x : β) : InThirds [x] [] where
  first_pos := Nat.one_pos
  first_le := Nat.le_add_left 1 2
  others_eq := List.forall_mem_nil _

/-- A group opened in front of a full one. -/
theorem open_group (h : InThirds first others) (hfull : first.length = 3) (x : β) :
    InThirds [x] (first :: others) where
  first_pos := (single x).first_pos
  first_le := (single x).first_le
  others_eq := List.forall_mem_cons.mpr ⟨hfull, h.others_eq⟩

/-- One more in a group that is not full. -/
theorem cons (h : InThirds first others) (hroom : first.length ≠ 3) (x : β) :
    InThirds (x :: first) others where
  first_pos := Nat.succ_pos _
  first_le := by
    have hle := h.first_le
    rw [List.length_cons]
    omega
  others_eq := h.others_eq

end InThirds

/-- **Commas between groups.** What is grouped has its commas between groups of three, counted from
the end. -/
theorem exists_thirds_groupDigits {cs : List Char} (hne : cs ≠ []) :
    ∃ first others, InThirds first others ∧ (first :: others).flatten = cs ∧
      groupDigits cs = List.intercalate [','] (first :: others) := by
  -- Characters are put in front, and the test for a comma is whether the first group of the rest
  -- is full.
  induction cs using groupDigits.induct with
  | case1 => exact absurd rfl hne
  | case2 c => exact ⟨[c], [], .single c, rfl, List.intercalate_singleton.symm⟩
  | case3 c d rest hthird ih =>
    obtain ⟨first, others, hthirds, hall, hgrouped⟩ := ih (List.cons_ne_nil d rest)
    have hfull : first.length = 3 := by
      rw [hthirds.full_iff, hall]
      exact hthird
    refine ⟨[c], first :: others, hthirds.open_group hfull c, ?_, ?_⟩
    · rw [List.flatten_cons, hall, List.singleton_append]
    · rw [groupDigits, if_pos hthird, hgrouped, List.intercalate_cons_cons]
      rfl
  | case4 c d rest hthird ih =>
    obtain ⟨first, others, hthirds, hall, hgrouped⟩ := ih (List.cons_ne_nil d rest)
    have hroom : first.length ≠ 3 := by
      rw [Ne, hthirds.full_iff, hall]
      exact hthird
    refine ⟨c :: first, others, hthirds.cons hroom c, ?_, ?_⟩
    · rw [List.flatten_cons, List.cons_append, ← List.flatten_cons, hall]
    · rw [groupDigits, if_neg hthird, hgrouped, Text.intercalate_cons, Text.intercalate_cons,
        List.cons_append]

/-- The digits of a count are what is left of its text without the commas. -/
theorem filter_grouped (n : Nat) : (grouped n).toList.filter (· ≠ ',') = digits n := by
  rw [toList_grouped, filter_groupDigits (by decide), List.filter_eq_self]
  intro c hc
  exact decide_eq_true fun hcomma => notMem_digits rfl n (hcomma ▸ hc)

/-- What stands between the commas of a count are groups of its digits. -/
theorem exists_thirds_grouped (n : Nat) :
    ∃ first others, Text.splitOn ',' (grouped n).toList = first :: others ∧
      InThirds first others ∧ (first :: others).flatten = digits n := by
  obtain ⟨first, others, hthirds, hall, hgrouped⟩ := exists_thirds_groupDigits (digits_ne_nil n)
  refine ⟨first, others, ?_, hthirds, hall⟩
  rw [toList_grouped, hgrouped]
  refine Text.splitOn_intercalate (List.cons_ne_nil first others) fun g hg hcomma => ?_
  exact notMem_digits rfl n (hall ▸ List.mem_flatten_of_mem hg hcomma)

theorem grouped_injective : Function.Injective grouped := by
  intro m n h
  apply digits_injective
  rw [← filter_grouped m, h, filter_grouped n]

/-- **Reading a grouped count.** Without its commas the text of a count is its decimal digits.
Between them stand one to three digits first, which start with a zero only if the count is zero,
and then three digits each.  So no two counts have the same text. -/
theorem grouped_reading :
    (∀ n : Nat, (grouped n).toList.filter (· ≠ ',') = Nat.toDigits 10 n ∧
      ∃ first others, Text.splitOn ',' (grouped n).toList = first :: others ∧
        InThirds first others ∧ (∀ g ∈ first :: others, ∀ c ∈ g, c.isDigit = true) ∧
        (first.head? = some '0' ↔ n = 0)) ∧
    Function.Injective grouped := by
  refine ⟨fun n => ⟨filter_grouped n, ?_⟩, grouped_injective⟩
  obtain ⟨first, others, hsplit, hthirds, hall⟩ := exists_thirds_grouped n
  refine ⟨first, others, hsplit, hthirds, ?_, ?_⟩
  · intro g hg c hc
    exact isDigit_of_mem_digits (hall ▸ List.mem_flatten_of_mem hg hc : c ∈ digits n)
  -- The first group starts the numeral, and a numeral starts with 0 only if it is that of 0.
  · have hfirst : first ≠ [] := List.length_pos_iff.mp hthirds.first_pos
    rw [← head?_digits_eq_zero_iff, ← hall, List.flatten_cons,
      List.head?_append_of_ne_nil _ hfirst]

example : grouped 1234567 = "1,234,567" := by decide

end TurtleCurves.Decimal
