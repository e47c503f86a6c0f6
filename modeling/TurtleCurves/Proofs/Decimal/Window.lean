import Mathlib.Tactic.Linarith
import Mathlib.Tactic.NormNum
import Mathlib.Tactic.Ring
import TurtleCurves.Proofs.Decimal.Digits

namespace TurtleCurves.Decimal

/-!
# Decimals that read back

* `Dyadic.Canonical` — the dyadic numbers that are the reading of a double;
* `Dyadic.ReadsBack d x` — the number `x` lies in the window of `d`;
* `Dyadic.window_holds_iff` — the test of the search is whether a decimal reads back;
* `Dyadic.eq_of_readsBack` — two windows do not overlap, so that a number reads back as one
  double.
-/

/-! ### Powers as fractions -/

/-- `b ^ k` as a fraction of natural numbers. -/
def powerFraction (b : Nat) (k : Int) : Nat × Nat :=
  if 0 ≤ k then (Nat.pow b k.toNat, 1) else (1, Nat.pow b (-k).toNat)

/-- Neither part of the fraction is zero. -/
theorem powerFraction_pos {b : Nat} (hb : 0 < b) (k : Int) :
    0 < (powerFraction b k).1 ∧ 0 < (powerFraction b k).2 := by
  unfold powerFraction
  split
  · exact ⟨Nat.pow_pos hb, Nat.one_pos⟩
  · exact ⟨Nat.one_pos, Nat.pow_pos hb⟩

/-- The fraction is the power. -/
theorem powerFraction_eq (b : Nat) (k : Int) :
    ((powerFraction b k).1 : ℚ) / (powerFraction b k).2 = (b : ℚ) ^ k := by
  unfold powerFraction
  split
  · next h =>
    obtain ⟨n, rfl⟩ := Int.eq_ofNat_of_zero_le h
    simp
  · next h =>
    obtain ⟨n, hn⟩ := Int.eq_ofNat_of_zero_le (show 0 ≤ -k by omega)
    have hk : k = -(n : Int) := by omega
    subst hk
    simp

/-! ### Windows -/

namespace Dyadic

/-- The dyadic numbers that doubles are read as: a mantissa of at most fifty-three bits, which are
all used unless the exponent is the least one. -/
structure Canonical (d : Dyadic) : Prop where
  mantissa_lt : d.mantissa < 2 ^ 53
  exponent_ge : -1074 ≤ d.exponent
  normal : 2 ^ 52 ≤ d.mantissa ∨ d.exponent = -1074
  boundary : d.boundary = true ↔ d.mantissa = 2 ^ 52 ∧ -1074 < d.exponent

/-- A quarter of the last place of the mantissa. -/
def quarter (d : Dyadic) : ℚ := (2 : ℚ) ^ (d.exponent - 2)

theorem quarter_pos (d : Dyadic) : 0 < d.quarter := zpow_pos (by norm_num) _

/-- The lower end of the window in quarters. -/
def low (d : Dyadic) : Nat := if d.boundary then 4 * d.mantissa - 1 else 4 * d.mantissa - 2

/-- The upper end of the window in quarters. -/
def high (d : Dyadic) : Nat := 4 * d.mantissa + 2

/-- A window reaches down by half a place at most. -/
theorem low_ge (d : Dyadic) : 4 * d.mantissa - 2 ≤ d.low := by
  unfold low
  split <;> omega

/-- The number `x` lies in the window of `d`; its ends count for an even mantissa. -/
def ReadsBack (d : Dyadic) (x : ℚ) : Prop :=
  if d.mantissa % 2 = 0 then d.low * d.quarter ≤ x ∧ x ≤ d.high * d.quarter
  else d.low * d.quarter < x ∧ x < d.high * d.quarter

/-- What reads back lies between the ends of the window, or at one of them. -/
theorem ReadsBack.bounds {d : Dyadic} {x : ℚ} (h : d.ReadsBack x) :
    d.low * d.quarter ≤ x ∧ x ≤ d.high * d.quarter := by
  unfold ReadsBack at h
  split at h
  · exact h
  · exact ⟨h.1.le, h.2.le⟩

/-- The ends of a window count for an even mantissa only. -/
theorem ReadsBack.even_of_end {d : Dyadic} {x : ℚ} (h : d.ReadsBack x)
    (hend : x = d.low * d.quarter ∨ x = d.high * d.quarter) : d.mantissa % 2 = 0 := by
  by_contra hodd
  rw [ReadsBack, if_neg hodd] at h
  rcases hend with rfl | rfl
  · exact lt_irrefl _ h.1
  · exact lt_irrefl _ h.2

/-! ### The window that is searched -/

/-- The window that is searched has the ends of the window of `d`, as fractions with one
denominator. -/
theorem window_eq (d : Dyadic) :
    d.window =
      ⟨d.low * (powerFraction 2 (d.exponent - 2)).1,
        4 * d.mantissa * (powerFraction 2 (d.exponent - 2)).1,
        d.high * (powerFraction 2 (d.exponent - 2)).1, (powerFraction 2 (d.exponent - 2)).2,
        d.mantissa % 2 = 0⟩ := by
  have hneg : -(d.exponent - 2) = 2 - d.exponent := by ring
  unfold window powerFraction low high
  by_cases h : 2 ≤ d.exponent
  · rw [if_pos h, if_pos (show 0 ≤ d.exponent - 2 by omega)]
  · rw [if_neg h, if_neg (show ¬ 0 ≤ d.exponent - 2 by omega), hneg]

theorem window_den_pos (d : Dyadic) : 0 < d.window.den := by
  rw [window_eq]
  exact (powerFraction_pos (by norm_num) _).2

/-- The window as fractions. -/
theorem window_fractions (d : Dyadic) :
    (d.window.low : ℚ) / d.window.den = d.low * d.quarter ∧
      (d.window.value : ℚ) / d.window.den = 4 * d.mantissa * d.quarter ∧
      (d.window.high : ℚ) / d.window.den = d.high * d.quarter := by
  have hpow := powerFraction_eq 2 (d.exponent - 2)
  rw [window_eq, quarter, ← Nat.cast_ofNat (R := ℚ) (n := 2), ← hpow]
  refine ⟨?_, ?_, ?_⟩ <;> push_cast <;> rw [mul_div_assoc]

/-- **The test of the search.** A decimal is tested for reading back. -/
theorem window_holds_iff (d : Dyadic) {n scale : Nat} (hscale : 0 < scale) :
    d.window.holds n scale = true ↔ d.ReadsBack ((n : ℚ) / scale) := by
  have hden : (0 : ℚ) < d.window.den := by exact_mod_cast d.window_den_pos
  have hscale' : (0 : ℚ) < scale := by exact_mod_cast hscale
  obtain ⟨hlow, _, hhigh⟩ := d.window_fractions
  have hclosed : d.window.closed = decide (d.mantissa % 2 = 0) := by rw [window_eq]
  rw [ReadsBack, ← hlow, ← hhigh, div_le_div_iff₀ hden hscale', div_le_div_iff₀ hscale' hden,
    div_lt_div_iff₀ hden hscale', div_lt_div_iff₀ hscale' hden]
  unfold Window.holds
  rw [hclosed]
  -- The ends count for an even mantissa, and do not for an odd one.
  by_cases heven : d.mantissa % 2 = 0
  · rw [if_pos heven]
    simp only [heven, decide_true, if_true, Bool.and_eq_true, decide_eq_true_eq]
    exact_mod_cast Iff.rfl
  · rw [if_neg heven]
    simp only [heven, decide_false, Bool.false_eq_true, if_false, Bool.and_eq_true,
      decide_eq_true_eq]
    exact_mod_cast Iff.rfl

/-! ### Windows do not overlap -/

/-- With the same exponent, the window of the smaller mantissa lies below the other; the two meet
at one end at most, and there one of the mantissas is odd. -/
theorem not_readsBack_of_mantissa_lt {d d' : Dyadic} (he : d.exponent = d'.exponent)
    (hm : d.mantissa < d'.mantissa) {x : ℚ} (hx : d.ReadsBack x) : ¬ d'.ReadsBack x := by
  intro hx'
  have hq : d.quarter = d'.quarter := by rw [quarter, quarter, he]
  have hpos := d'.quarter_pos
  obtain ⟨_, hhigh⟩ := hx.bounds
  obtain ⟨hlow, _⟩ := hx'.bounds
  rw [hq] at hhigh
  have hle : (d'.low : ℚ) * d'.quarter ≤ d.high * d'.quarter := le_trans hlow hhigh
  -- In whole quarters the windows could share one point, the upper end of the lower one.
  have hnat : d'.low ≤ d.high := by exact_mod_cast le_of_mul_le_mul_right hle hpos
  have hlow' := d'.low_ge
  have hhigh' : d.high = 4 * d.mantissa + 2 := rfl
  have hmeet : d'.low = d.high := by omega
  have hend : x = d.high * d.quarter := by
    rw [hq]
    refine le_antisymm hhigh ?_
    rw [← hmeet]
    exact hlow
  have heven := hx.even_of_end (.inr hend)
  have heven' := hx'.even_of_end (.inl (by rw [hend, hq, hmeet]))
  omega

/-- Counted in quarters of a smaller exponent, a window starts at twice its low end or later. -/
theorem low_le_of_exponent_lt {d d' : Dyadic} (he : d.exponent < d'.exponent) :
    (d'.low : ℚ) * 2 * d.quarter ≤ d'.low * d'.quarter := by
  have hpos := d.quarter_pos
  obtain ⟨k, hk⟩ : ∃ k : Nat, d'.exponent = d.exponent + 1 + k :=
    ⟨(d'.exponent - d.exponent - 1).toNat, by omega⟩
  have hquarter : d'.quarter = d.quarter * 2 * 2 ^ k := by
    rw [quarter, quarter, hk, show d.exponent + 1 + (k : Int) - 2 = d.exponent - 2 + 1 + k by ring,
      zpow_add₀ (by norm_num), zpow_add₀ (by norm_num), zpow_natCast, zpow_one]
  have hpow : (1 : ℚ) ≤ 2 ^ k := one_le_pow₀ (by norm_num)
  have hnn : (0 : ℚ) ≤ d'.low * 2 * d.quarter := by positivity
  calc (d'.low : ℚ) * 2 * d.quarter = d'.low * 2 * d.quarter * 1 := (mul_one _).symm
    _ ≤ d'.low * 2 * d.quarter * 2 ^ k := mul_le_mul_of_nonneg_left hpow hnn
    _ = d'.low * d'.quarter := by rw [hquarter]; ring

/-- With a smaller exponent a whole window lies below the other. -/
theorem not_readsBack_of_exponent_lt {d d' : Dyadic} (hd : d.Canonical) (hd' : d'.Canonical)
    (he : d.exponent < d'.exponent) {x : ℚ} (hx : d.ReadsBack x) : ¬ d'.ReadsBack x := by
  intro hx'
  have hpos := d.quarter_pos
  obtain ⟨_, hhigh⟩ := hx.bounds
  obtain ⟨hlow, _⟩ := hx'.bounds
  have hge := hd.exponent_ge
  have hm := hd.mantissa_lt
  have hnormal : 2 ^ 52 ≤ d'.mantissa := by
    rcases hd'.normal with h | h
    · exact h
    · omega
  have htwice := low_le_of_exponent_lt he
  have hle : ((d'.low * 2 : Nat) : ℚ) * d.quarter ≤ d.high * d.quarter := by
    push_cast
    exact le_trans htwice (le_trans hlow hhigh)
  have hnat : d'.low * 2 ≤ d.high := by exact_mod_cast le_of_mul_le_mul_right hle hpos
  have hhigh' : d.high = 4 * d.mantissa + 2 := rfl
  have hlow' := d'.low_ge
  have hlow'' : d'.mantissa = 2 ^ 52 → d'.low = 4 * d'.mantissa - 1 := by
    intro hb
    rw [low, if_pos (hd'.boundary.mpr ⟨hb, by omega⟩)]
  -- The windows can only meet below a power of two, and there the lower mantissa is odd.
  have hb : d'.mantissa = 2 ^ 52 := by omega
  have hlast : d.mantissa = 2 ^ 53 - 1 := by
    have := hlow'' hb
    omega
  have hmeet : d'.low * 2 = d.high := by
    have := hlow'' hb
    omega
  have hend : x = d.high * d.quarter := by
    refine le_antisymm hhigh ?_
    rw [← hmeet]
    push_cast
    exact le_trans htwice hlow
  have heven := hx.even_of_end (.inr hend)
  omega

/-- **Windows do not overlap.** A number reads back as one canonical dyadic at most. -/
theorem eq_of_readsBack {d d' : Dyadic} (hd : d.Canonical) (hd' : d'.Canonical) {x : ℚ}
    (hx : d.ReadsBack x) (hx' : d'.ReadsBack x) :
    d.mantissa = d'.mantissa ∧ d.exponent = d'.exponent := by
  have he : d.exponent = d'.exponent := by
    -- Different exponents would put one window below the other, and so would different mantissas.
    rcases lt_trichotomy d.exponent d'.exponent with h | h | h
    · exact absurd hx' (not_readsBack_of_exponent_lt hd hd' h hx)
    · exact h
    · exact absurd hx (not_readsBack_of_exponent_lt hd' hd h hx')
  refine ⟨?_, he⟩
  rcases lt_trichotomy d.mantissa d'.mantissa with h | h | h
  · exact absurd hx' (not_readsBack_of_mantissa_lt he h hx)
  · exact h
  · exact absurd hx (not_readsBack_of_mantissa_lt he.symm h hx')

end Dyadic

end TurtleCurves.Decimal
