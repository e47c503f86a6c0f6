import Mathlib.Algebra.Order.Field.Power
import Mathlib.Data.List.Basic
import Mathlib.Data.Rat.Cast.Order
import Mathlib.Tactic.FieldSimp
import TurtleCurves.Decimal.Shortest

namespace TurtleCurves.Decimal

/-!
# What a positional text says

* `digits_injective`, `lt_pow_length_digits`, `pow_length_digits_le` — the digits of a natural
  number determine it, and their number bounds it;
* `head?_digits_eq_zero_iff` — they start with a zero only if the number is zero;
* `filter_groupDigits`, `grouped_plain` — a grouped count has digits and commas only, and the
  digits in their order;
* `amount n power` — the number `n · 10 ^ power`;
* `amount_eq_of_positional_eq` — the positional text determines that number;
* `positional_head_isDigit`, `positional_plain` — which characters such a text has.
-/

/-! ### Digits -/

/-- The digits of a number are digits. -/
theorem isDigit_of_mem_digits {n : Nat} {c : Char} (h : c ∈ digits n) : c.isDigit = true :=
  Nat.isDigit_of_mem_toDigits (by decide) (by decide) h

/-- Nothing else is among them. -/
theorem notMem_digits {c : Char} (hc : c.isDigit = false) (n : Nat) : c ∉ digits n := by
  intro h
  rw [isDigit_of_mem_digits h] at hc
  exact absurd hc (by decide)

theorem digits_ne_nil (n : Nat) : digits n ≠ [] := Nat.toDigits_ne_nil

/-- Only zero starts with a zero. -/
theorem head?_digits_eq_zero_iff (n : Nat) : (digits n).head? = some '0' ↔ n = 0 := by
  induction n using Nat.strong_induction_on with
  | _ n ih =>
    by_cases hn : n < 10
    · rw [digits, Nat.toDigits_of_lt_base hn, List.head?_cons, Option.some_inj, ← Char.toNat_inj,
        Nat.toNat_digitChar_of_lt_ten hn]
      exact Nat.add_eq_left
    · -- The first digit is that of a tenth of the number, which is not zero either.
      have hdigits : digits n = digits (n / 10) ++ [(n % 10).digitChar] :=
        Nat.toDigits_of_base_le (by decide) (by omega)
      rw [hdigits, List.head?_append_of_ne_nil _ (digits_ne_nil (n / 10)), ih (n / 10) (by omega)]
      omega

/-- Leading zeros do not count when digits are read. -/
theorem ofDigitChars_padLeft (width n : Nat) :
    Nat.ofDigitChars 10 (padLeft width (digits n)) 0 = n := by
  rw [padLeft, Nat.ofDigitChars_append, Nat.ofDigitChars_replicate_zero, Nat.mul_zero, digits,
    Nat.ofDigitChars_ten_toDigits]

/-- **The digits determine the number.** -/
theorem digits_injective : Function.Injective digits := by
  intro m n h
  calc
    m = Nat.ofDigitChars 10 (digits m) 0 := Nat.ofDigitChars_ten_toDigits.symm
    _ = Nat.ofDigitChars 10 (digits n) 0 := by rw [h]
    _ = n := Nat.ofDigitChars_ten_toDigits

/-- A number is below the power of ten that its digits count. -/
theorem lt_pow_length_digits (n : Nat) : n < 10 ^ (digits n).length :=
  (Nat.length_toDigits_le_iff (by decide) Nat.length_toDigits_pos).mp (Nat.le_refl _)

/-- It is not below the one before. -/
theorem pow_length_digits_le {n : Nat} (h : 0 < n) : 10 ^ ((digits n).length - 1) ≤ n := by
  have hpos : 0 < (digits n).length := Nat.length_toDigits_pos
  by_contra hlt
  rw [Nat.not_le] at hlt
  -- One digit says no more than that the number is not zero.
  by_cases hone : (digits n).length - 1 = 0
  · rw [hone, Nat.pow_zero] at hlt
    omega
  · have hle := (Nat.length_toDigits_le_iff (by decide) (by omega)).mpr hlt
    have : (digits n).length ≤ (digits n).length - 1 := hle
    omega

/-- Digits with leading zeros are digits still. -/
theorem isDigit_of_mem_padLeft {width n : Nat} {c : Char} (h : c ∈ padLeft width (digits n)) :
    c.isDigit = true := by
  rw [padLeft, List.mem_append] at h
  rcases h with h | h
  · rw [List.eq_of_mem_replicate h]
    rfl
  · exact isDigit_of_mem_digits h

/-- Padding reaches the width, and does not cut off what is longer. -/
theorem length_padLeft (width : Nat) (cs : List Char) :
    (padLeft width cs).length = max width cs.length := by
  rw [padLeft, List.length_append, List.length_replicate]
  omega

/-- Grouping puts in commas and nothing else: whatever leaves commas out leaves the same. -/
theorem filter_groupDigits {p : Char → Bool} (hp : p ',' = false) (cs : List Char) :
    (groupDigits cs).filter p = cs.filter p := by
  have hcomma : ¬ p ',' = true := by rw [hp]; exact Bool.false_ne_true
  -- By the recursion of grouping: a comma goes in before every third digit from the end.
  induction cs using groupDigits.induct with
  | case1 => rfl
  | case2 d => rfl
  | case3 d e rest hthird ih =>
    rw [groupDigits, if_pos hthird, List.filter_cons, List.filter_cons_of_neg hcomma, ih,
      ← List.filter_cons]
  | case4 d e rest hthird ih =>
    rw [groupDigits, if_neg hthird, List.filter_cons, ih, ← List.filter_cons]

/-- A grouped text has the given characters and commas. -/
theorem mem_groupDigits {cs : List Char} {c : Char} (h : c ∈ groupDigits cs) :
    c ∈ cs ∨ c = ',' := by
  by_cases hc : c = ','
  · exact .inr hc
  · have hkept : c ∈ (groupDigits cs).filter (· ≠ ',') :=
      List.mem_filter.mpr ⟨h, decide_eq_true hc⟩
    rw [filter_groupDigits (by decide)] at hkept
    exact .inl (List.mem_filter.mp hkept).1

theorem toList_grouped (n : Nat) : (grouped n).toList = groupDigits (digits n) :=
  String.toList_ofList

/-- A grouped count has digits and commas only. -/
theorem grouped_plain {n : Nat} {c : Char} (h : c ∈ (grouped n).toList) :
    c.isDigit = true ∨ c = ',' := by
  rw [toList_grouped] at h
  exact (mem_groupDigits h).imp_left isDigit_of_mem_digits

/-! ### Positional text -/

/-- The number `n · 10 ^ power`. -/
def amount (n : Nat) (power : Int) : ℚ := n * 10 ^ power

/-- With a power that is not negative the amount is a whole number. -/
theorem amount_of_nonneg {n : Nat} {power : Int} (h : 0 ≤ power) :
    amount n power = ((n * 10 ^ power.toNat : Nat) : ℚ) := by
  obtain ⟨k, rfl⟩ := Int.eq_ofNat_of_zero_le h
  rw [amount, Int.toNat_natCast, zpow_natCast]
  push_cast
  rfl

/-- A text with a point: the digits before it and after it. -/
theorem positional_of_neg (n : Nat) {power : Int} (h : power < 0) :
    ∃ whole fraction : List Char, positional n power = whole ++ '.' :: fraction ∧
      whole ++ fraction = padLeft ((-power).toNat + 1) (digits n) ∧
      fraction.length = (-power).toNat ∧ whole ≠ [] := by
  have hlen := length_padLeft ((-power).toNat + 1) (digits n)
  refine ⟨_, _, if_neg (by omega), List.take_append_drop _ _, ?_, ?_⟩
  · rw [List.length_drop]
    omega
  · intro hnil
    have hzero := congrArg List.length hnil
    rw [List.length_take, List.length_nil] at hzero
    omega

/-- Without places behind the point the text is the digits, with zeros behind them. -/
theorem positional_of_nonneg {n : Nat} {power : Int} (h : 0 ≤ power) :
    positional n power = digits (n * 10 ^ power.toNat) := if_pos h

/-- **A positional text determines its number.** -/
theorem amount_eq_of_positional_eq {n n' : Nat} {power power' : Int}
    (h : positional n power = positional n' power') : amount n power = amount n' power' := by
  -- A text without a point has digits only, so both texts have one or neither has.
  have hdot : ∀ (m m' : Nat) (p p' : Int), 0 ≤ p → p' < 0 →
      positional m p ≠ positional m' p' := by
    intro m m' p p' hp hp' heq
    obtain ⟨whole, fraction, htext, _, _, _⟩ := positional_of_neg m' hp'
    have hmem : '.' ∈ digits (m * 10 ^ p.toNat) := by
      rw [← positional_of_nonneg hp, heq, htext]
      exact List.mem_append_right _ List.mem_cons_self
    exact notMem_digits rfl _ hmem
  by_cases hp : 0 ≤ power <;> by_cases hp' : 0 ≤ power'
  · rw [positional_of_nonneg hp, positional_of_nonneg hp'] at h
    rw [amount_of_nonneg hp, amount_of_nonneg hp', digits_injective h]
  · exact absurd h (hdot _ _ _ _ hp (by omega))
  · exact absurd h.symm (hdot _ _ _ _ hp' (by omega))
  · have hneg : power < 0 := by omega
    have hneg' : power' < 0 := by omega
    obtain ⟨whole, fraction, htext, hall, hlen, _⟩ := positional_of_neg n hneg
    obtain ⟨whole', fraction', htext', hall', hlen', _⟩ := positional_of_neg n' hneg'
    rw [htext, htext'] at h
    -- The point stands once, and splits both texts at the same place.
    have hnodot : ∀ {cs : List Char} {w m : Nat}, (∀ c ∈ cs, c ∈ padLeft w (digits m)) →
        '.' ∉ cs := by
      intro cs w m hcs hmem
      exact absurd (isDigit_of_mem_padLeft (hcs _ hmem)) (by decide)
    have hwhole : '.' ∉ whole := hnodot fun c hc => hall ▸ List.mem_append_left _ hc
    have hfraction : '.' ∉ fraction := hnodot fun c hc => hall ▸ List.mem_append_right _ hc
    obtain ⟨rfl, _, rfl⟩ := (List.append_cons_inj_of_notMem hwhole hfraction).mp h
    have hplaces : power = power' := by omega
    have hn : n = n' := by
      rw [← ofDigitChars_padLeft ((-power).toNat + 1) n, ← hall, hall', ofDigitChars_padLeft]
    rw [hplaces, hn]

/-- A positional text starts with a digit. -/
theorem positional_head_isDigit (n : Nat) (power : Int) :
    ∃ c rest, positional n power = c :: rest ∧ c.isDigit = true := by
  -- A text with a point has a digit in front of it.
  by_cases hp : 0 ≤ power
  · rw [positional_of_nonneg hp]
    obtain ⟨c, rest, hcons⟩ := List.exists_cons_of_ne_nil (digits_ne_nil (n * 10 ^ power.toNat))
    refine ⟨c, rest, hcons, isDigit_of_mem_digits (n := n * 10 ^ power.toNat) ?_⟩
    rw [hcons]
    exact List.mem_cons_self
  · have hneg : power < 0 := by omega
    obtain ⟨whole, fraction, htext, hall, _, hne⟩ := positional_of_neg n hneg
    obtain ⟨c, rest, rfl⟩ := List.exists_cons_of_ne_nil hne
    have hc : c ∈ padLeft ((-power).toNat + 1) (digits n) := by
      rw [← hall]
      exact List.mem_append_left _ List.mem_cons_self
    exact ⟨c, rest ++ '.' :: fraction, by rw [htext, List.cons_append], isDigit_of_mem_padLeft hc⟩

/-- A positional text has digits and points only. -/
theorem positional_plain {n : Nat} {power : Int} {c : Char} (h : c ∈ positional n power) :
    c.isDigit = true ∨ c = '.' := by
  by_cases hp : 0 ≤ power
  · rw [positional_of_nonneg hp] at h
    exact .inl (isDigit_of_mem_digits h)
  · have hneg : power < 0 := by omega
    obtain ⟨whole, fraction, htext, hall, _, _⟩ := positional_of_neg n hneg
    rw [htext, List.mem_append, List.mem_cons] at h
    rcases h with h | h | h
    · exact .inl (isDigit_of_mem_padLeft (hall ▸ List.mem_append_left _ h))
    · exact .inr h
    · exact .inl (isDigit_of_mem_padLeft (hall ▸ List.mem_append_right _ h))

end TurtleCurves.Decimal
