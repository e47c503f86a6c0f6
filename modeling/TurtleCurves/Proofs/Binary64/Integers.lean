import TurtleCurves.Proofs.Binary64.Wholes
import TurtleCurves.Proofs.Exact.Wholes

namespace TurtleCurves

namespace Binary64

open Float.Model Float.Model.UnpackedFloat

/-!
# Integers as doubles

Integers of up to 53 digits are doubles, and arithmetic with them is exact as long as the result has
no more digits.

* `StandsFor` — the parts of a double are those of an integer;
* `StandsFor.add`, `StandsFor.sub`, `StandsFor.mul`, `StandsFor.div` — the operations on parts; a
  quotient is exact if nothing remains;
* `lt_iff_of_standsFor`, `truncate_of_standsFor`, `standsFor_floor`, `standsFor_round` — order and
  rounding to whole numbers;
* `ExactWholes.binary64` — doubles are exact on whole numbers below `2⁵³`;
* `truncate_maximum_zero`, `truncate_minimum_last` — every double that is cut off at zero and at the
  last of a number of places has a whole part among them.
-/

/-! ### Signs -/

/-- The opposite sign gives the opposite integer. -/
theorem apply_neg (s : Sign) (a : ℤ) : (-s).apply a = -s.apply a := by
  cases s with
  | negative => exact (Int.neg_neg a).symm
  | positive => rfl

/-- A sign does not change the size. -/
theorem natAbs_apply (s : Sign) (n : ℕ) : (s.apply n).natAbs = n := by
  cases s with
  | negative => exact Int.natAbs_neg n
  | positive => rfl

/-- A sign in front of a product is one in front of its first factor. -/
theorem apply_mul_right (s : Sign) (a b : ℤ) : s.apply (a * b) = s.apply a * b := by
  cases s with
  | negative => exact (Int.neg_mul a b).symm
  | positive => rfl

/-- **Signs multiply** as the integers do that they stand before. -/
theorem apply_mul_apply (s t : Sign) (a b : ℤ) : (s * t).apply (a * b) = s.apply a * t.apply b := by
  cases s <;> cases t
  case negative.negative => exact (Int.neg_mul_neg a b).symm
  case negative.positive => exact (Int.neg_mul a b).symm
  case positive.negative => exact (Int.mul_neg a b).symm
  case positive.positive => rfl

/-- A sign that is divided by another and multiplied by it again is the same. -/
theorem sign_div_mul_cancel (s t : Sign) : s / t * t = s := by cases s <;> cases t <;> rfl

/-! ### Parts of integers -/

/-- The parts are those of the integer; a zero of either sign stands for `0`. -/
def StandsFor (f : UnpackedFloat) (a : ℤ) : Prop :=
  ∃ s n, n < 2 ^ 53 ∧ f = whole s n ∧ s.apply n = a

namespace StandsFor

variable {f g : UnpackedFloat} {a b : ℤ}

/-- The parts of an integer are those of some double. -/
theorem isCanonical (h : StandsFor f a) : IsCanonical f := by
  obtain ⟨s, n, hn, rfl, -⟩ := h
  exact isCanonical_whole s hn

/-- An integer is a number. -/
theorem isNaN (h : StandsFor f a) : f.isNaN = false := by
  obtain ⟨s, n, -, rfl, -⟩ := h
  exact isNaN_whole s n

/-- An integer that parts stand for has at most 53 digits. -/
theorem natAbs_lt (h : StandsFor f a) : a.natAbs < 2 ^ 53 := by
  obtain ⟨s, n, hn, -, rfl⟩ := h
  rwa [natAbs_apply]

/-- An integer in units. -/
theorem units (h : StandsFor f a) : units f = a * one := by
  obtain ⟨s, n, hn, rfl, rfl⟩ := h
  exact units_whole s hn

/-- A zero of either sign stands for `0`. -/
theorem zero (s : Sign) : StandsFor (.zero s) 0 :=
  ⟨s, 0, Nat.two_pow_pos 53, rfl, apply_zero s⟩

/-- The opposite parts stand for the opposite integer. -/
theorem neg (h : StandsFor f a) : StandsFor f.neg (-a) := by
  obtain ⟨s, n, hn, rfl, rfl⟩ := h
  refine ⟨-s, n, hn, ?_, apply_neg s n⟩
  rcases Nat.eq_zero_or_pos n with rfl | hpos
  · rfl
  · rw [whole_of_pos s hpos, whole_of_pos (-s) hpos]
    rfl

/-- An integer is rounded to its parts, with any number of places behind the point. -/
theorem normalize (ha : a.natAbs < 2 ^ 53) (k : ℕ) :
    StandsFor (UnpackedFloat.normalize Format.binary64 (a * (2 ^ k : ℕ)) (-k) .positive) a := by
  -- The digits are those of the size; only the sign differs.
  rcases Int.lt_or_le a 0 with hneg | hnonneg
  · have hpos : 0 < a.natAbs := Int.natAbs_pos.mpr hneg.ne
    have hsize : -(a.natAbs : ℤ) = a := by omega
    have hdigits : a * (2 ^ k : ℕ) = -(a.natAbs * 2 ^ k : ℕ) := by
      rw [Int.natCast_mul, ← Int.neg_mul, hsize]
    rw [hdigits, normalize_neg_whole hpos ha]
    exact ⟨.negative, a.natAbs, ha, rfl, hsize⟩
  · have hsize : (a.natAbs : ℤ) = a := Int.natAbs_of_nonneg hnonneg
    have hdigits : a * (2 ^ k : ℕ) = (a.natAbs * 2 ^ k : ℕ) := by rw [Int.natCast_mul, hsize]
    rw [hdigits, normalize_whole ha]
    exact ⟨.positive, a.natAbs, ha, rfl, hsize⟩

/-! ### Arithmetic -/

/-- The digits of a count, moved to an exponent that is not above its own. -/
theorem decreaseExponent_whole {n k : ℕ} (hlog : n.log2 < 53) (hk : 52 - n.log2 ≤ k) :
    (decreaseExponent (n * 2 ^ (52 - n.log2)) (n.log2 - 52) (-k)).1 = n * 2 ^ k := by
  have hshift : ((n.log2 : ℤ) - 52 - -k).toNat = k - (52 - n.log2) := by omega
  rw [decreaseExponent, hshift, Nat.shiftLeft_eq, digits_of_le hk]

/-- **Sums.** -/
theorem add (hf : StandsFor f a) (hg : StandsFor g b) (hsum : (a + b).natAbs < 2 ^ 53) :
    StandsFor (UnpackedFloat.add Format.binary64 f g) (a + b) := by
  obtain ⟨s, n, hn, rfl, rfl⟩ := hf
  obtain ⟨t, m, hm, rfl, rfl⟩ := hg
  -- A zero has no digits, and every operation treats it apart.
  rcases Nat.eq_zero_or_pos n with rfl | hnpos
  · rw [Int.natCast_zero, apply_zero, Int.zero_add]
    rcases Nat.eq_zero_or_pos m with rfl | hmpos
    · rw [Int.natCast_zero, apply_zero]
      cases s <;> cases t <;> exact zero _
    · refine ⟨t, m, hm, ?_, rfl⟩
      rw [whole_of_pos t hmpos]
      rfl
  rcases Nat.eq_zero_or_pos m with rfl | hmpos
  · refine ⟨s, n, hn, ?_, ?_⟩
    · rw [whole_of_pos s hnpos]
      rfl
    · rw [Int.natCast_zero, apply_zero, Int.add_zero]
  -- Both counts are given the places of the smaller one.
  have hlogn : n.log2 < 53 := (Nat.log2_lt hnpos.ne').mpr hn
  have hlogm : m.log2 < 53 := (Nat.log2_lt hmpos.ne').mpr hm
  have hleast : min ((n.log2 : ℤ) - 52) (m.log2 - 52) =
      -(max (52 - n.log2) (52 - m.log2) : ℕ) := by omega
  have hn' := decreaseExponent_whole hlogn (le_max_left (52 - n.log2) (52 - m.log2))
  have hm' := decreaseExponent_whole hlogm (le_max_right (52 - n.log2) (52 - m.log2))
  rw [whole_of_pos s hnpos, whole_of_pos t hmpos, UnpackedFloat.add]
  simp only [hleast, hn', hm', Int.natCast_mul, apply_mul_right]
  rw [← Int.add_mul]
  exact normalize hsum _

/-- Subtracting is adding the opposite. -/
theorem sub_eq_add_neg (f g : UnpackedFloat) :
    UnpackedFloat.sub Format.binary64 f g = UnpackedFloat.add Format.binary64 f g.neg := by
  cases f with
  | notANumber => cases g <;> rfl
  | infinity s => cases g <;> rfl
  | zero s => cases g <;> rfl
  | finite s m e hm =>
    cases g with
    | finite t m' e' hm' =>
      -- Only two numbers with digits are subtracted digit by digit.
      simp only [UnpackedFloat.sub, UnpackedFloat.neg, UnpackedFloat.add, apply_neg,
        Int.sub_eq_add_neg]
    | _ => rfl

/-- **Differences.** -/
theorem sub (hf : StandsFor f a) (hg : StandsFor g b) (hdiff : (a - b).natAbs < 2 ^ 53) :
    StandsFor (UnpackedFloat.sub Format.binary64 f g) (a - b) := by
  rw [sub_eq_add_neg, Int.sub_eq_add_neg]
  rw [Int.sub_eq_add_neg] at hdiff
  exact hf.add hg.neg hdiff

/-- A product of counts has its digits, and as many places as both have together. -/
theorem mul_whole {n m : ℕ} (hlogn : n.log2 < 53) (hlogm : m.log2 < 53) :
    n * 2 ^ (52 - n.log2) * (m * 2 ^ (52 - m.log2)) = n * m * 2 ^ (104 - n.log2 - m.log2) ∧
      (n.log2 : ℤ) - 52 + (m.log2 - 52) = -(104 - n.log2 - m.log2 : ℕ) := by
  have hplaces : 104 - n.log2 - m.log2 = 52 - n.log2 + (52 - m.log2) := by omega
  refine ⟨?_, by omega⟩
  rw [Nat.mul_mul_mul_comm, ← Nat.pow_add, hplaces]

/-- **Products.** -/
theorem mul (hf : StandsFor f a) (hg : StandsFor g b) (hproduct : (a * b).natAbs < 2 ^ 53) :
    StandsFor (UnpackedFloat.mul Format.binary64 f g) (a * b) := by
  obtain ⟨s, n, hn, rfl, rfl⟩ := hf
  obtain ⟨t, m, hm, rfl, rfl⟩ := hg
  rw [← apply_mul_apply, ← Int.natCast_mul] at hproduct ⊢
  rw [natAbs_apply] at hproduct
  refine ⟨s * t, n * m, hproduct, ?_, rfl⟩
  -- A product with a zero is a zero of the product's sign.
  rcases Nat.eq_zero_or_pos n with rfl | hnpos
  · rw [Nat.zero_mul]
    rcases Nat.eq_zero_or_pos m with rfl | hmpos
    · rfl
    · rw [whole_of_pos t hmpos]
      rfl
  rcases Nat.eq_zero_or_pos m with rfl | hmpos
  · rw [whole_of_pos s hnpos]
    rfl
  have hlogn : n.log2 < 53 := (Nat.log2_lt hnpos.ne').mpr hn
  have hlogm : m.log2 < 53 := (Nat.log2_lt hmpos.ne').mpr hm
  obtain ⟨hdigits, hplace⟩ := mul_whole hlogn hlogm
  -- The first digit of a product is not before those of its factors.
  have hlog : n.log2 + m.log2 ≤ (n * m).log2 := by
    rw [Nat.le_log2 (Nat.mul_pos hnpos hmpos).ne', Nat.pow_add]
    exact Nat.mul_le_mul (Nat.log2_self_le hnpos.ne') (Nat.log2_self_le hmpos.ne')
  rw [whole_of_pos s hnpos, whole_of_pos t hmpos, UnpackedFloat.mul]
  simp only [hdigits, hplace]
  exact roundWithAccuracy_whole (s * t) (Nat.mul_pos hnpos hmpos) hproduct (by omega)

/-- The first digit of a product is at most one place before those of its factors. -/
theorem log2_mul_le {n m : ℕ} (hn : 0 < n) (hm : 0 < m) :
    (n * m).log2 ≤ n.log2 + m.log2 + 1 := by
  have hlt : n * m < 2 ^ (n.log2 + 1) * 2 ^ (m.log2 + 1) :=
    Nat.mul_lt_mul'' Nat.lt_log2_self Nat.lt_log2_self
  rw [← Nat.pow_add, ← Nat.log2_lt (Nat.mul_pos hn hm).ne'] at hlt
  omega

/-- The first digit of a count, of which its parts have not changed the position. -/
theorem totalExponent_whole {n : ℕ} (hpos : 0 < n) (hlog : n.log2 < 53) :
    totalExponent (n * 2 ^ (52 - n.log2)) (n.log2 - 52) = n.log2 + 1 := by
  have hplace : (n.log2 : ℤ) - 52 = 0 - (52 - n.log2 : ℕ) := by omega
  rw [hplace, totalExponent_mul hpos, totalExponent, Int.add_zero]

/-- A division without a remainder ends after 53 places. -/
theorem divCore_whole {n m q : ℕ} (hn : n = q * m) (hnpos : 0 < n) (hmpos : 0 < m)
    (hlogn : n.log2 < 53) (hlogm : m.log2 < 53) :
    divCore Format.binary64 (n * 2 ^ (52 - n.log2)) (n.log2 - 52) (m * 2 ^ (52 - m.log2))
        (m.log2 - 52) =
      (q * 2 ^ (53 + m.log2 - n.log2), (-(53 + m.log2 - n.log2 : ℕ) : ℤ), .exact) := by
  -- The quotient is asked for as many places as its first digit may lie before the 53rd.
  have htarget : Format.binary64.targetExponent ((n.log2 : ℤ) + 1 - (m.log2 + 1)) =
      -(53 + m.log2 - n.log2 : ℕ) := by
    show max ((n.log2 : ℤ) + 1 - (m.log2 + 1) - 53) (-1074) = _
    omega
  have hleast : min ((n.log2 : ℤ) - 52 - (m.log2 - 52)) (-(53 + m.log2 - n.log2 : ℕ)) =
      -(53 + m.log2 - n.log2 : ℕ) := by omega
  have hshift : ((n.log2 : ℤ) - 52 - (m.log2 - 52) - -(53 + m.log2 - n.log2 : ℕ)).toNat = 53 := by
    omega
  have hplaces : 52 - n.log2 + 53 = 53 + m.log2 - n.log2 + (52 - m.log2) := by omega
  have hdigits : n * 2 ^ (52 - n.log2) * 2 ^ 53 =
      q * 2 ^ (53 + m.log2 - n.log2) * (m * 2 ^ (52 - m.log2)) := by
    rw [Nat.mul_mul_mul_comm, ← hn, Nat.mul_assoc, ← Nat.pow_add, ← Nat.pow_add, hplaces]
  have hdivisor : 0 < m * 2 ^ (52 - m.log2) := Nat.mul_pos hmpos (Nat.two_pow_pos _)
  simp only [divCore, totalExponent_whole hnpos hlogn, totalExponent_whole hmpos hlogm, htarget,
    hleast, hshift, Nat.shiftLeft_eq, hdigits, Nat.mul_div_cancel _ hdivisor, Nat.mul_mod_left]
  rfl

/-- **Quotients** without a remainder. -/
theorem div (hf : StandsFor f (a * b)) (hg : StandsFor g b) (hb : b ≠ 0) :
    StandsFor (UnpackedFloat.div Format.binary64 f g) a := by
  obtain ⟨s, n, hn, rfl, hab⟩ := hf
  obtain ⟨t, m, hm, rfl, rfl⟩ := hg
  have hmpos : 0 < m := by
    rcases Nat.eq_zero_or_pos m with rfl | hpos
    · exact absurd (apply_zero t) hb
    · exact hpos
  have hproduct : n = a.natAbs * m := by
    rw [← natAbs_apply s n, hab, Int.natAbs_mul, natAbs_apply]
  have hsign : (s / t).apply a.natAbs = a := by
    refine Int.eq_of_mul_eq_mul_right hb ?_
    rw [← apply_mul_apply, sign_div_mul_cancel, ← Int.natCast_mul, ← hproduct, hab]
  have hle : a.natAbs ≤ n := hproduct ▸ Nat.le_mul_of_pos_right _ hmpos
  refine ⟨s / t, a.natAbs, hle.trans_lt hn, ?_, hsign⟩
  -- The dividend is zero together with the quotient.
  rcases Nat.eq_zero_or_pos a.natAbs with hzero | hqpos
  · rw [hzero, Nat.zero_mul] at hproduct
    rw [hproduct, hzero, whole_of_pos t hmpos]
    rfl
  have hnpos : 0 < n := hproduct ▸ Nat.mul_pos hqpos hmpos
  have hlogn : n.log2 < 53 := (Nat.log2_lt hnpos.ne').mpr hn
  have hlogm : m.log2 < 53 := (Nat.log2_lt hmpos.ne').mpr hm
  have hlog := log2_mul_le hqpos hmpos
  rw [← hproduct] at hlog
  -- The division is exact, so the rounding after it has nothing to do.
  rw [whole_of_pos s hnpos, whole_of_pos t hmpos, UnpackedFloat.div]
  simp only [divCore_whole hproduct hnpos hmpos hlogn hlogm]
  exact roundWithAccuracy_whole (s / t) hqpos (hle.trans_lt hn) (by omega)

end StandsFor

/-! ### Doubles -/

section Doubles

variable {x y : Float} {a b : ℤ}

/-- Packing does not change what the parts of an integer stand for. -/
theorem StandsFor.packed {f : UnpackedFloat} (h : StandsFor f a) :
    StandsFor (Float.Model.pack f).unpack a := by
  rwa [unpack_pack h.isCanonical]

/-- A natural number below `2⁵³` is a double. -/
theorem standsFor_ofNat {n : ℕ} (hn : n < 2 ^ 53) : StandsFor (parts (Float.ofNat n)) n :=
  ⟨.positive, n, hn, parts_ofNat hn, rfl⟩

/-- So is an integer of either sign. -/
theorem standsFor_ofInt (ha : a.natAbs < 2 ^ 53) : StandsFor (parts (Float.ofInt a)) a := by
  cases a with
  | ofNat n => exact standsFor_ofNat ha
  | negSucc n =>
    show StandsFor (parts (-Float.ofNat (n + 1))) (Int.negSucc n)
    rw [parts_neg]
    exact (standsFor_ofNat ha).neg

/-- Doubles that stand for integers are added as these. -/
theorem standsFor_add (hx : StandsFor (parts x) a) (hy : StandsFor (parts y) b)
    (hsum : (a + b).natAbs < 2 ^ 53) : StandsFor (parts (x + y)) (a + b) :=
  (hx.add hy hsum).packed

/-- They are subtracted as these. -/
theorem standsFor_sub (hx : StandsFor (parts x) a) (hy : StandsFor (parts y) b)
    (hdiff : (a - b).natAbs < 2 ^ 53) : StandsFor (parts (x - y)) (a - b) :=
  (hx.sub hy hdiff).packed

/-- They are multiplied as these. -/
theorem standsFor_mul (hx : StandsFor (parts x) a) (hy : StandsFor (parts y) b)
    (hproduct : (a * b).natAbs < 2 ^ 53) : StandsFor (parts (x * y)) (a * b) :=
  (hx.mul hy hproduct).packed

/-- They are divided as these if nothing remains. -/
theorem standsFor_div (hx : StandsFor (parts x) (a * b)) (hy : StandsFor (parts y) b)
    (hb : b ≠ 0) : StandsFor (parts (x / y)) a :=
  (hx.div hy hb).packed

/-- Doubles that stand for integers are ordered as these. -/
theorem lt_iff_of_standsFor (hx : StandsFor (parts x) a) (hy : StandsFor (parts y) b) :
    x < y ↔ a < b := by
  rw [lt_iff_units hx.isNaN hy.isNaN, hx.units, hy.units]
  exact mul_lt_mul_iff_left₀ (Int.natCast_pos.mpr one_pos)

/-! ### Rounding to whole numbers -/

/-- Cutting off the places behind the point leaves an integer as it is. -/
theorem truncate_of_standsFor (hx : StandsFor (parts x) a) : truncate x = a := by
  have hone : (one : ℤ) ≠ 0 := (Int.natCast_pos.mpr one_pos).ne'
  have hlt := hx.natAbs_lt
  rw [truncate_eq, hx.units, Int.mul_tdiv_cancel _ hone]
  omega

/-- The whole part of an integer is the integer, below `2⁵²` and from there on. -/
theorem standsFor_wholePart (hx : StandsFor (parts x) a) : StandsFor (parts (wholePart x)) a := by
  have htruncate := truncate_of_standsFor hx
  simp only [wholePart, htruncate]
  -- Three branches: a whole part of zero keeps its sign, another is converted back, and from `2⁵²`
  -- on the value is its own whole part.
  split
  · split
    · next hzero =>
      subst hzero
      exact standsFor_mul hx (standsFor_ofNat (Nat.two_pow_pos 53)) (Nat.two_pow_pos 53)
    · exact standsFor_ofInt hx.natAbs_lt
  · exact hx

/-- An integer is not rounded down. -/
theorem standsFor_floor (hx : StandsFor (parts x) a) : StandsFor (parts (floor x)) a := by
  have hwhole := standsFor_wholePart hx
  have hnot : ¬ x < wholePart x := by
    rw [lt_iff_of_standsFor hx hwhole]
    exact lt_irrefl a
  rw [floor, if_neg hnot]
  exact hwhole

theorem le_iff_parts : x ≤ y ↔ (parts x).le (parts y) = true := decide_eq_true_iff

theorem parts_half : parts 0.5 = .finite .positive (2 ^ 52) (-53) (Nat.two_pow_pos _) := rfl

theorem parts_neg_half : parts (-0.5) = .finite .negative (2 ^ 52) (-53) (Nat.two_pow_pos _) := rfl

/-- A zero of either sign is not half a place from the next whole number. -/
theorem not_half_le (hx : StandsFor (parts x) 0) : ¬ 0.5 ≤ x ∧ ¬ x ≤ -0.5 := by
  obtain ⟨s, n, -, hparts, hzero⟩ := hx
  obtain rfl : n = 0 := by rw [← natAbs_apply s n, hzero, Int.natAbs_zero]
  rw [le_iff_parts, le_iff_parts, parts_half, parts_neg_half, hparts]
  exact ⟨Bool.false_ne_true, Bool.false_ne_true⟩

/-- An integer is not rounded. -/
theorem standsFor_round (hx : StandsFor (parts x) a) : StandsFor (parts (round x)) a := by
  have hwhole := standsFor_wholePart hx
  have hrest : StandsFor (parts (x - wholePart x)) 0 := by
    have h := standsFor_sub hx hwhole (by rw [Int.sub_self]; decide)
    rwa [Int.sub_self] at h
  obtain ⟨hup, hdown⟩ := not_half_le hrest
  rw [round, if_neg hup, if_neg hdown]
  exact hwhole

end Doubles

/-! ### Cutting off -/

/-- The last of a number of places, counted from zero. -/
theorem standsFor_ofNat_sub_one {n : ℕ} (hn : n < 2 ^ 53) :
    StandsFor (parts (Float.ofNat n - Float.ofNat 1)) (n - 1) :=
  standsFor_sub (standsFor_ofNat hn) (standsFor_ofNat (by decide)) (by omega)

/-- What is not negative has no negative whole part. -/
theorem truncate_nonneg {x : Float} (h : ¬ x < 0) : 0 ≤ truncate x := by
  rw [truncate, if_neg h]
  exact Int.natCast_nonneg _

/-- **Cut off at zero,** every double has a whole part that is not negative. -/
theorem truncate_maximum_zero (x : Float) : 0 ≤ truncate (maximum x 0) := by
  have hzero : ¬ (0 : Float) < 0 := (lt_zero_iff 0).not.mpr (lt_irrefl 0)
  rw [maximum]
  -- The maximum is the other argument if one is not a number, and else the larger.
  split
  · exact truncate_nonneg hzero
  split
  · next hnan => cases hnan
  split
  · exact truncate_nonneg hzero
  · next h => exact truncate_nonneg h

/-- **Cut off at the last of a number of places,** every double has a whole part below that
number. -/
theorem truncate_minimum_last (x : Float) {n : ℕ} (hn : n < 2 ^ 53) :
    truncate (minimum x (Float.ofNat n - Float.ofNat 1)) < n := by
  have hstands := standsFor_ofNat_sub_one hn
  have hlast := truncate_of_standsFor hstands
  have hnumber : (Float.ofNat n - Float.ofNat 1).isNaN = false := hstands.isNaN
  rw [minimum]
  -- The minimum is the other argument if one is not a number, and else the smaller.
  split
  · omega
  split
  · next hnan => rw [hnumber] at hnan; cases hnan
  split
  · omega
  · next hx _ h =>
    have hle := truncate_le_truncate (Bool.not_eq_true _ ▸ hx) hnumber h
    omega

end Binary64

/-! ### Exactness -/

/-- Doubles are exact on whole numbers of up to 53 digits. -/
def ExactWholes.binary64 : ExactWholes Float where
  bound := 2 ^ 53 - 1
  byte_le := by decide
  Stands x a := Binary64.StandsFor (Binary64.parts x) a
  ofNat h := Binary64.standsFor_ofNat (by omega)
  add hx hy h := Binary64.standsFor_add hx hy (by omega)
  sub hx hy h := Binary64.standsFor_sub hx hy (by omega)
  mul hx hy h := Binary64.standsFor_mul hx hy (by omega)
  div hx hy hb := Binary64.standsFor_div hx hy hb
  lt hx hy := Binary64.lt_iff_of_standsFor hx hy
  floor hx := Binary64.standsFor_floor hx
  round hx := Binary64.standsFor_round hx
  truncate hx := Binary64.truncate_of_standsFor hx

end TurtleCurves
