import TurtleCurves.Proofs.Binary64.Units

namespace TurtleCurves.Binary64

open Float.Model Float.Model.UnpackedFloat

/-!
# Whole parts of doubles

* `mantissa_shiftRight`, `shiftRight_exact` — digits that are shifted out;
* `size_div_one`, `roundToInt_eq` — the whole part of a finite double is the quotient of its units
  by the units of one;
* `truncate_eq` — casts saturate: the whole part of every double, cut off at the ends of 64 bits;
* `truncate_le_truncate` — whole parts keep the order.
-/

/-! ### Shifting digits out -/

theorem shiftRight_succ (em : ExtendedMantissa) (k : ℕ) :
    em >>> (k + 1) = (em >>> k).shiftRightOne := rfl

/-- What is left of the digits is the quotient. -/
theorem mantissa_shiftRight (em : ExtendedMantissa) (k : ℕ) :
    (em >>> k).mantissa = em.mantissa / 2 ^ k := by
  induction k with
  | zero => exact (Nat.div_one _).symm
  | succ k ih =>
    rw [shiftRight_succ, Nat.pow_succ, ← Nat.div_div_eq_div_mul, ← ih]
    rfl

/-- Zeros that are shifted out leave no trace. -/
theorem shiftRight_exact (m k : ℕ) :
    (⟨m * 2 ^ k, false, false⟩ : ExtendedMantissa) >>> k = ⟨m, false, false⟩ := by
  induction k generalizing m with
  | zero => rw [Nat.pow_zero, Nat.mul_one]; rfl
  | succ k ih =>
    rw [shiftRight_succ, Nat.pow_succ', ← Nat.mul_assoc, ih]
    simp [ExtendedMantissa.shiftRightOne]

/-! ### Whole parts -/

/-- How many units make one. -/
def one : ℕ := size 1 0

theorem one_pos : 0 < one := size_pos 0 Nat.one_pos

/-- What remains of a mantissa above the point. -/
theorem size_div_one (m : ℕ) {e : ℤ} (he : -1074 ≤ e) :
    size m e / one = m * 2 ^ e.toNat / 2 ^ (-e).toNat := by
  rw [one, size, size, Nat.one_mul]
  have hexponents : (e + 1074).toNat + (-e).toNat = e.toNat + (0 + 1074 : ℤ).toNat := by omega
  generalize (0 + 1074 : ℤ).toNat = k at hexponents ⊢
  calc m * 2 ^ (e + 1074).toNat / 2 ^ k
      = m * 2 ^ (e + 1074).toNat * 2 ^ (-e).toNat / (2 ^ k * 2 ^ (-e).toNat) :=
        (Nat.mul_div_mul_right _ _ (Nat.two_pow_pos _)).symm
    _ = m * 2 ^ e.toNat * 2 ^ k / (2 ^ (-e).toNat * 2 ^ k) := by
        rw [Nat.mul_assoc, ← Nat.pow_add, hexponents, Nat.pow_add, ← Nat.mul_assoc,
          Nat.mul_comm (2 ^ k)]
    _ = m * 2 ^ e.toNat / 2 ^ (-e).toNat := Nat.mul_div_mul_right _ _ (Nat.two_pow_pos _)

/-- The whole part of a finite double. -/
theorem roundToInt_eq (s : Sign) (m : ℕ) {e : ℤ} (he : -1074 ≤ e) :
    roundToInt s m e = s.apply (size m e / one : ℕ) := by
  have hshift : (0 - (e - ((e - 0).toNat : ℤ))).toNat = (-e).toNat := by omega
  simp only [roundToInt, decreaseExponent, shiftToExponent, mantissa_shiftRight, hshift]
  rw [size_div_one m he, Int.sub_zero, Nat.shiftLeft_eq]
  rfl

/-- An infinity is beyond all 64 bits. -/
theorem le_infinite_div_one : 2 ^ 64 ≤ infinite / one := by
  have hpoint : (-971 : ℤ).toNat = 0 := rfl
  have hplaces : 11 ≤ (971 : ℤ).toNat := by decide
  rw [infinite, size_div_one _ (by omega), hpoint, Nat.pow_zero, Nat.div_one]
  generalize (971 : ℤ).toNat = k at hplaces ⊢
  calc 2 ^ 64 = 2 ^ 53 * 2 ^ 11 := rfl
    _ ≤ 2 ^ 53 * 2 ^ k := Nat.mul_le_mul_left _ (Nat.pow_le_pow_right Nat.two_pos hplaces)

/-- A natural number cut off at the last one of 64 bits. -/
theorem toNat_ofNatClamp (n : ℕ) : (UInt64.ofNatClamp n).toNat = min n (2 ^ 64 - 1) := by
  unfold UInt64.ofNatClamp
  split
  · next h => exact (min_eq_left (Nat.le_sub_one_of_lt h)).symm
  · next h => exact (min_eq_right ((Nat.sub_le _ _).trans (Nat.not_lt.mp h))).symm

/-- The whole part of a double as an unsigned number of 64 bits. -/
theorem toNat_toUInt64 {f : UnpackedFloat} (hf : IsCanonical f) :
    f.toUInt64.toNat = min ((units f).tdiv one).toNat (2 ^ 64 - 1) := by
  have hinf := le_infinite_div_one
  have hsize : ((UInt64.size : ℤ) - 1).toNat = 2 ^ 64 - 1 := rfl
  rw [UnpackedFloat.toUInt64, toNat_ofNatClamp]
  cases f with
  | notANumber => rw [units, Int.zero_tdiv]; rfl
  | zero s => rw [units, Int.zero_tdiv]; rfl
  -- An infinity clamps as the number of its `units` does, since that lies past the largest word.
  | infinity s =>
    cases s with
    | negative =>
      rw [units, Sign.apply, Int.neg_tdiv, ← Int.ofNat_tdiv]
      show min 0 _ = _
      omega
    | positive =>
      rw [units, Sign.apply, ← Int.ofNat_tdiv]
      show min ((UInt64.size : ℤ) - 1).toNat _ = _
      omega
  -- The model rounds a magnitude and signs it afterwards; truncated division does the same.
  | finite s m e hm =>
    rw [UnpackedFloat.toInt, roundToInt_eq s m hf.least, units]
    cases s with
    | negative => rw [Sign.apply, Sign.apply, Int.neg_tdiv, ← Int.ofNat_tdiv]
    | positive => rw [Sign.apply, Sign.apply, ← Int.ofNat_tdiv]

/-! ### Casts -/

/-- What is no number counts as zero, and is not less. -/
theorem lt_zero_iff (x : Float) : x < 0 ↔ units (parts x) < 0 := by
  cases hx : x.isNaN with
  | true =>
    refine iff_of_false (not_lt_of_isNaN hx) ?_
    rw [← isNaN_parts] at hx
    cases hf : parts x with
    | notANumber => exact lt_irrefl 0
    | _ =>
      rw [hf] at hx
      cases hx
  | false => exact lt_iff_units hx rfl

/-- **Casts saturate.** The whole part of a double is that of its units, cut off at the ends of 64
bits. -/
theorem truncate_eq (x : Float) :
    truncate x = max (-2 ^ 63) (min ((units (parts x)).tdiv one) (2 ^ 63 - 1)) := by
  have hone : (0 : ℤ) < one := Int.natCast_pos.mpr one_pos
  have hpow : Nat.pow 2 63 = 2 ^ 63 := rfl
  rw [truncate, hpow]
  split
  · next hneg =>
    -- The cast is that of the opposite, which may be as long as the least integer.
    have hwhole : (units (parts x)).tdiv one ≤ (0 : ℤ).tdiv one :=
      Int.tdiv_le_tdiv hone ((lt_zero_iff x).mp hneg).le
    have hcast := toNat_toUInt64 (isCanonical_parts (-x))
    rw [parts_neg, units_neg, Int.neg_tdiv, ← parts_neg] at hcast
    rw [Int.zero_tdiv] at hwhole
    show -((min (parts (-x)).toUInt64.toNat (2 ^ 63) : ℕ) : ℤ) = _
    omega
  · next hnonneg =>
    have hwhole : 0 ≤ (units (parts x)).tdiv one :=
      Int.tdiv_nonneg (not_lt.mp ((lt_zero_iff x).not.mp hnonneg)) hone.le
    have hcast := toNat_toUInt64 (isCanonical_parts x)
    show ((min (parts x).toUInt64.toNat (2 ^ 63 - 1) : ℕ) : ℤ) = _
    omega

/-- Whole parts keep the order. -/
theorem truncate_le_truncate {x y : Float} (hx : x.isNaN = false) (hy : y.isNaN = false)
    (h : ¬ y < x) : truncate x ≤ truncate y := by
  have hunits : (units (parts x)).tdiv one ≤ (units (parts y)).tdiv one :=
    Int.tdiv_le_tdiv (Int.natCast_pos.mpr one_pos) (not_lt.mp ((lt_iff_units hy hx).not.mp h))
  rw [truncate_eq, truncate_eq]
  exact max_le_max_left _ (min_le_min_right _ hunits)

end TurtleCurves.Binary64
