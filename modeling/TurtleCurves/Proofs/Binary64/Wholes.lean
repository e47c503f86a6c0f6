import TurtleCurves.Proofs.Binary64.Truncation

namespace TurtleCurves.Binary64

open Float.Model Float.Model.UnpackedFloat

/-!
# Counts as doubles

Doubles have room for 53 binary digits, so that smaller counts are exact.

* `roundWithAccuracy_exact`, `round_mul`, `round_of_mul` — rounding changes nothing where the digits
  fit;
* `whole`, `units_whole` — the parts of a count with a sign, and its size in units;
* `roundWithAccuracy_whole`, `normalize_whole` — a count is rounded to its parts, whatever places
  behind the point it is given;
* `parts_ofNat` — the parts of a natural number.
-/

/-! ### Rounding what needs none -/

/-- Canonical parts have the exponent that the format asks for. -/
theorem targetExponent_eq {m : ℕ} {e : ℤ} (h : Canonical m e) :
    Format.binary64.targetExponent (totalExponent m e) = e := by
  have hne : m ≠ 0 := h.pos.ne'
  have hlog : m.log2 < 53 := (Nat.log2_lt hne).mpr h.lt
  show max ((m.log2 : ℤ) + 1 + e - 53) (-1074) = e
  rcases h.full with hfull | rfl
  · have hlog' : 52 ≤ m.log2 := (Nat.le_log2 hne).mpr hfull
    have hleast := h.least
    omega
  · omega

/-- Zeros behind the digits move the first digit up. -/
theorem log2_mul_two_pow {m : ℕ} (hm : 0 < m) (k : ℕ) : (m * 2 ^ k).log2 = m.log2 + k := by
  induction k with
  | zero => rw [Nat.pow_zero, Nat.mul_one, Nat.add_zero]
  | succ k ih =>
    have hne : m * 2 ^ k ≠ 0 := (Nat.mul_pos hm (Nat.two_pow_pos k)).ne'
    rw [Nat.pow_succ', Nat.mul_left_comm, Nat.log2_two_mul hne, ih, Nat.add_assoc]

/-- Zeros behind the digits do not change the position of the first one. -/
theorem totalExponent_mul {m : ℕ} (hm : 0 < m) (e : ℤ) (k : ℕ) :
    totalExponent (m * 2 ^ k) (e - k) = totalExponent m e := by
  rw [totalExponent, totalExponent, log2_mul_two_pow hm]
  omega

/-- Zeros behind canonical digits are taken away. -/
theorem shiftToTargetExponent_exact {m : ℕ} {e : ℤ} (h : Canonical m e) (k : ℕ) :
    shiftToTargetExponent Format.binary64 (m * 2 ^ k) (e - k) .exact = (⟨m, false, false⟩, e) := by
  have hshift : (e - (e - k)).toNat = k := by omega
  simp only [shiftToTargetExponent, shiftToExponent, totalExponent_mul h.pos, targetExponent_eq h,
    hshift]
  refine Prod.ext ?_ (Int.sub_add_cancel e k)
  exact shiftRight_exact m k

/-- **Rounding** takes zeros away, and nothing else, where canonical digits are in front of them. -/
theorem roundWithAccuracy_exact {m : ℕ} {e : ℤ} (h : Canonical m e) (s : Sign) (k : ℕ) :
    roundWithAccuracy Format.binary64 s (m * 2 ^ k) (e - k) .exact = .finite s m e h.pos := by
  -- A carry might have made the digits too long, so that they are shifted once more.
  have hagain : shiftToTargetExponent Format.binary64 m e .exact = (⟨m, false, false⟩, e) := by
    simpa using shiftToTargetExponent_exact h 0
  rw [roundWithAccuracy, shiftToTargetExponent_exact h k]
  show (match shiftToTargetExponent Format.binary64 m e .exact with
    | (em, e') => if hm : em.mantissa = 0 then UnpackedFloat.zero s
      else .finite s em.mantissa e' (Nat.pos_of_ne_zero hm)) = _
  rw [hagain]
  exact dif_neg h.pos.ne'

/-- Rounding takes the zeros behind canonical digits away. -/
theorem round_mul {m : ℕ} {e : ℤ} (h : Canonical m e) (s : Sign) (k : ℕ) :
    UnpackedFloat.round Format.binary64 s (m * 2 ^ k) (e - k) = .finite s m e h.pos := by
  have hshift : (e - k - e).toNat = 0 := by omega
  simp only [UnpackedFloat.round, totalExponent_mul h.pos, targetExponent_eq h, decreaseExponent,
    hshift]
  rw [Nat.shiftLeft_zero, Int.natCast_zero, Int.sub_zero]
  exact roundWithAccuracy_exact h s k

/-- Digits that lack zeros are given them. -/
theorem round_of_mul {n k : ℕ} {e : ℤ} (h : Canonical (n * 2 ^ k) e) (s : Sign) :
    UnpackedFloat.round Format.binary64 s n (e + k) = .finite s (n * 2 ^ k) e h.pos := by
  have hn : 0 < n := Nat.pos_of_mul_pos_right h.pos
  have htotal : totalExponent n (e + k) = totalExponent (n * 2 ^ k) e := by
    rw [← totalExponent_mul hn (e + k) k, Int.add_sub_cancel]
  have hshift : (e + k - e).toNat = k := by omega
  have hround := roundWithAccuracy_exact h s 0
  simp only [UnpackedFloat.round, htotal, targetExponent_eq h, decreaseExponent, hshift]
  rw [Nat.shiftLeft_eq, Int.add_sub_cancel]
  simpa using hround

/-! ### Counts -/

/-- A count that 53 digits have room for. -/
theorem canonical_whole {n : ℕ} (hpos : 0 < n) (hlt : n < 2 ^ 53) :
    Canonical (n * 2 ^ (52 - n.log2)) (n.log2 - 52) := by
  have hlog : n.log2 < 53 := (Nat.log2_lt hpos.ne').mpr hlt
  have hle : 2 ^ n.log2 ≤ n := Nat.log2_self_le hpos.ne'
  have hlt' : n < 2 ^ (n.log2 + 1) := Nat.lt_log2_self
  refine ⟨Nat.mul_pos hpos (Nat.two_pow_pos _), ?_, by omega, by omega, .inl ?_⟩
  -- With its first digit in front a count is below `2⁵³`, and not below `2⁵²`.
  · calc n * 2 ^ (52 - n.log2)
        < 2 ^ (n.log2 + 1) * 2 ^ (52 - n.log2) :=
          Nat.mul_lt_mul_of_pos_right hlt' (Nat.two_pow_pos _)
      _ = 2 ^ 53 := by rw [← Nat.pow_add]; congr 1; omega
  · calc 2 ^ 52 = 2 ^ n.log2 * 2 ^ (52 - n.log2) := by rw [← Nat.pow_add]; congr 1; omega
      _ ≤ n * 2 ^ (52 - n.log2) := Nat.mul_le_mul_right _ hle

/-- The parts of a count with a sign: its first digit is moved to the front. -/
def whole (s : Sign) (n : ℕ) : UnpackedFloat :=
  if h : 0 < n then
    .finite s (n * 2 ^ (52 - n.log2)) (n.log2 - 52) (Nat.mul_pos h (Nat.two_pow_pos _))
  else .zero s

/-- A count that is not zero has its first digit in front. -/
theorem whole_of_pos (s : Sign) {n : ℕ} (h : 0 < n) :
    whole s n = .finite s (n * 2 ^ (52 - n.log2)) (n.log2 - 52)
      (Nat.mul_pos h (Nat.two_pow_pos _)) := dif_pos h

/-- The parts of a count are those of some double. -/
theorem isCanonical_whole (s : Sign) {n : ℕ} (hn : n < 2 ^ 53) : IsCanonical (whole s n) := by
  rw [whole]
  split
  · next hpos => exact canonical_whole hpos hn
  · trivial

/-- A count is a number. -/
theorem isNaN_whole (s : Sign) (n : ℕ) : (whole s n).isNaN = false := by
  rw [whole]
  split <;> rfl

/-- Zero has no sign. -/
theorem apply_zero (s : Sign) : s.apply 0 = 0 := by cases s <;> rfl

/-- A count in units. -/
theorem units_whole (s : Sign) {n : ℕ} (hn : n < 2 ^ 53) :
    units (whole s n) = s.apply n * one := by
  rcases Nat.eq_zero_or_pos n with rfl | hpos
  · rw [Int.natCast_zero, apply_zero, Int.zero_mul]
    rfl
  have hlog : n.log2 < 53 := (Nat.log2_lt hpos.ne').mpr hn
  have hplaces : 52 - n.log2 + ((n.log2 : ℤ) - 52 + 1074).toNat = (0 + 1074 : ℤ).toNat := by omega
  have hsize : size (n * 2 ^ (52 - n.log2)) (n.log2 - 52) = n * one := by
    rw [one, size, size, Nat.one_mul, Nat.mul_assoc, ← Nat.pow_add, hplaces]
  rw [whole_of_pos s hpos, units, hsize, Int.natCast_mul]
  cases s with
  | negative => exact (Int.neg_mul _ _).symm
  | positive => rfl

/-- The digits of a count, put in front of `k` places that are enough for it. -/
theorem digits_of_le {n k : ℕ} (hk : 52 - n.log2 ≤ k) :
    n * 2 ^ (52 - n.log2) * 2 ^ (k - (52 - n.log2)) = n * 2 ^ k := by
  rw [Nat.mul_assoc, ← Nat.pow_add, Nat.add_sub_cancel' hk]

/-- A count with places behind the point is rounded to its parts. -/
theorem roundWithAccuracy_whole (s : Sign) {n k : ℕ} (hpos : 0 < n) (hn : n < 2 ^ 53)
    (hk : 52 - n.log2 ≤ k) :
    roundWithAccuracy Format.binary64 s (n * 2 ^ k) (-k) .exact = whole s n := by
  have hlog : n.log2 < 53 := (Nat.log2_lt hpos.ne').mpr hn
  have hplace : (-k : ℤ) = n.log2 - 52 - (k - (52 - n.log2) : ℕ) := by omega
  rw [whole_of_pos s hpos, ← digits_of_le hk, hplace]
  exact roundWithAccuracy_exact (canonical_whole hpos hn) s _

/-- The same with any number of places, be they enough for its digits or not. -/
theorem round_whole (s : Sign) {n : ℕ} (hpos : 0 < n) (hn : n < 2 ^ 53) (k : ℕ) :
    UnpackedFloat.round Format.binary64 s (n * 2 ^ k) (-k) = whole s n := by
  have hcanonical := canonical_whole hpos hn
  have hlog : n.log2 < 53 := (Nat.log2_lt hpos.ne').mpr hn
  rw [whole_of_pos s hpos]
  -- The count has its 53 digits with zeros to spare, or zeros have to be put behind it.
  rcases Nat.le_total (52 - n.log2) k with hk | hk
  · have hplace : (-k : ℤ) = n.log2 - 52 - (k - (52 - n.log2) : ℕ) := by omega
    rw [← digits_of_le hk, hplace, round_mul hcanonical]
  · have hdigits : n * 2 ^ k * 2 ^ (52 - n.log2 - k) = n * 2 ^ (52 - n.log2) := by
      rw [Nat.mul_assoc, ← Nat.pow_add, Nat.add_sub_cancel' hk]
    have hplace : (-k : ℤ) = n.log2 - 52 + (52 - n.log2 - k : ℕ) := by omega
    rw [hplace, round_of_mul (hdigits.symm ▸ hcanonical)]
    simp only [hdigits]

/-- A natural number with places behind the point is rounded to its parts. -/
theorem normalize_whole {n : ℕ} (hn : n < 2 ^ 53) (k : ℕ) :
    UnpackedFloat.normalize Format.binary64 (n * 2 ^ k : ℕ) (-k) .positive = whole .positive n := by
  rcases Nat.eq_zero_or_pos n with rfl | hpos
  · rw [Nat.zero_mul]
    rfl
  have hsign : compare ((n * 2 ^ k : ℕ) : ℤ) 0 = .gt :=
    compare_gt_iff_gt.mpr (Int.natCast_pos.mpr (Nat.mul_pos hpos (Nat.two_pow_pos k)))
  rw [UnpackedFloat.normalize, hsign]
  exact round_whole .positive hpos hn k

/-- So is its opposite. -/
theorem normalize_neg_whole {n : ℕ} (hpos : 0 < n) (hn : n < 2 ^ 53) (k : ℕ) :
    UnpackedFloat.normalize Format.binary64 (-(n * 2 ^ k : ℕ)) (-k) .positive =
      whole .negative n := by
  have hsign : compare (-((n * 2 ^ k : ℕ) : ℤ)) 0 = .lt :=
    compare_lt_iff_lt.mpr
      (Int.neg_neg_of_pos (Int.natCast_pos.mpr (Nat.mul_pos hpos (Nat.two_pow_pos k))))
  rw [UnpackedFloat.normalize, hsign, Int.neg_neg]
  exact round_whole .negative hpos hn k

/-- The parts of a natural number. -/
theorem ofNat_eq_whole {n : ℕ} (hn : n < 2 ^ 53) :
    UnpackedFloat.ofNat Format.binary64 n = whole .positive n := by
  have hround := normalize_whole hn 0
  rwa [Nat.pow_zero, Nat.mul_one, Int.natCast_zero, Int.neg_zero] at hround

/-- **Counts are exact** below `2⁵³`. -/
theorem parts_ofNat {n : ℕ} (hn : n < 2 ^ 53) : parts (Float.ofNat n) = whole .positive n := by
  have hbits : (n.toUInt64).toNat = n := UInt64.toNat_ofNat_of_lt' (by rw [UInt64.size]; omega)
  have hword : parts (n.toUInt64.toFloat) = whole .positive n := by
    show (Float.Model.pack (UnpackedFloat.ofNat Format.binary64 n.toUInt64.toNat)).unpack = _
    rw [hbits, ofNat_eq_whole hn, unpack_pack (isCanonical_whole .positive hn)]
  -- Counts of 53 digits are cast as words, and then multiplied by one.
  have hfast : Float.ofNat n = n.toUInt64.toFloat * Float.ofBits 0x3FF0000000000000 :=
    dif_pos ⟨hn, Nat.zero_le _⟩
  have hone : parts (Float.ofBits 0x3FF0000000000000) =
      .finite .positive (2 ^ 52) (-52) (Nat.two_pow_pos _) := rfl
  have hproduct : UnpackedFloat.mul Format.binary64 (whole .positive n)
      (.finite .positive (2 ^ 52) (-52) (Nat.two_pow_pos _)) = whole .positive n := by
    rcases Nat.eq_zero_or_pos n with rfl | hpos
    · rfl
    · rw [whole_of_pos _ hpos]
      exact roundWithAccuracy_exact (canonical_whole hpos hn) .positive 52
  rw [hfast]
  show (Float.Model.pack (UnpackedFloat.mul Format.binary64 (parts n.toUInt64.toFloat)
    (parts (Float.ofBits 0x3FF0000000000000)))).unpack = _
  rw [hword, hone, hproduct, unpack_pack (isCanonical_whole .positive hn)]

end TurtleCurves.Binary64
