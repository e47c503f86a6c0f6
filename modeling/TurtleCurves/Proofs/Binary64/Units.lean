import Mathlib
import TurtleCurves.Scalar.Binary64

namespace TurtleCurves.Binary64

open Float.Model Float.Model.UnpackedFloat

/-!
# Doubles in units

Every finite double is a whole multiple of the least positive one, `2⁻¹⁰⁷⁴`.  Counted in this unit
doubles are integers, and what is said about their order is said about integers.

* `Canonical`, `IsCanonical` — the parts that doubles have, and `unpack_pack`, which says that such
  parts are not changed by packing;
* `units` — a double as an integer, with the infinities beyond all others;
* `lt_iff`, `lt_iff_units` — the order of doubles is that of their units;
* `parts`, `parts_neg`, `units_neg` — the parts of a double and of its opposite.
-/

/-! ### Canonical parts -/

/-- Mantissa and exponent of a double that is not zero: 53 binary digits, or fewer of them with the
least exponent. -/
structure Canonical (m : ℕ) (e : ℤ) : Prop where
  pos : 0 < m
  lt : m < 2 ^ 53
  least : -1074 ≤ e
  most : e ≤ 971
  full : 2 ^ 52 ≤ m ∨ e = -1074

/-- The parts are those of a double. -/
def IsCanonical : UnpackedFloat → Prop
  | .finite _ m e _ => Canonical m e
  | _ => True

/-- The digits of a full mantissa, the first one put back. -/
theorem toNat_append_implicit (v : BitVec 52) : (1#1 ++ v).toNat = 2 ^ 52 + v.toNat := by
  rw [BitVec.toNat_append, ← Nat.shiftLeft_add_eq_or_of_lt v.isLt]
  rfl

/-- **Every double is canonical.** -/
theorem isCanonical_unpack (b : BitVec Format.binary64.numBits) :
    IsCanonical (UnpackedFloat.unpack Format.binary64 b) := by
  have hones : (-1#11 : BitVec 11).toNat = 2047 := rfl
  have hmantissa : (unpackMantissa b).toNat < 2 ^ 52 := (unpackMantissa b).isLt
  have hexponent : (unpackExponent b).toNat < 2 ^ 11 := (unpackExponent b).isLt
  unfold UnpackedFloat.unpack
  dsimp only
  -- The last exponent is kept for what is not finite, the first for mantissas that are not full.
  split
  · split <;> trivial
  next hlast =>
  have hlast' : (unpackExponent b).toNat ≠ 2047 := fun h =>
    hlast (BitVec.eq_of_toNat_eq (h.trans hones.symm))
  split
  next hfirst =>
    split
    · trivial
    next hzero =>
    have hleast : ((unpackExponent b).toNat : ℤ) - (1023 + 52) + 1 = -1074 := by rw [hfirst]; rfl
    refine ⟨Nat.pos_of_ne_zero fun h => hzero (BitVec.eq_of_toNat_eq h),
      Nat.lt_trans hmantissa (by decide), hleast.ge, ?_, .inr hleast⟩
    exact hleast.trans_le (by decide)
  next hfirst =>
    have hfirst' : (unpackExponent b).toNat ≠ 0 := fun h => hfirst (BitVec.eq_of_toNat_eq h)
    have hfull := toNat_append_implicit (unpackMantissa b)
    refine ⟨by omega, by omega, ?_, ?_, .inl (by omega)⟩
    · show (-1074 : ℤ) ≤ (unpackExponent b).toNat - (1023 + 52)
      omega
    · show ((unpackExponent b).toNat : ℤ) - (1023 + 52) ≤ 971
      omega

/-! ### Packing -/

/-- Components with an exponent of their own are a full mantissa, its first digit left out. -/
theorem unpack_packComponents {s : Sign} {exponent : BitVec 11} {mantissa : BitVec 52} {m : ℕ}
    {e : ℤ} (hm : 0 < m) (hlast : exponent.toNat ≠ 2047) (hfirst : exponent.toNat ≠ 0)
    (hmantissa : 2 ^ 52 + mantissa.toNat = m) (hexponent : exponent.toNat - 1075 = e) :
    UnpackedFloat.unpack Format.binary64 (packComponents Format.binary64 s exponent mantissa) =
      .finite s m e hm := by
  have hnotlast : exponent ≠ -1#11 := fun h => hlast (by rw [h]; rfl)
  have hnotfirst : exponent ≠ 0#11 := fun h => hfirst (by rw [h]; rfl)
  have hdigits : (1#1 ++ mantissa).toNat = m := (toNat_append_implicit mantissa).trans hmantissa
  unfold UnpackedFloat.unpack
  simp only [unpackMantissa_packComponents, unpackExponent_packComponents,
    unpackSign_packComponents, Sign.ofBitVec_toBitVec, if_neg hnotlast, if_neg hnotfirst, hdigits]
  congr 1

/-- Components without an exponent are a mantissa with the least one. -/
theorem unpack_packComponents_zero {s : Sign} {mantissa : BitVec 52} {m : ℕ} (hm : 0 < m)
    (hmantissa : mantissa.toNat = m) :
    UnpackedFloat.unpack Format.binary64 (packComponents Format.binary64 s 0#11 mantissa) =
      .finite s m (-1074) hm := by
  have hnot : mantissa ≠ 0#52 := by
    rintro rfl
    exact hm.ne hmantissa
  unfold UnpackedFloat.unpack
  simp only [unpackMantissa_packComponents, unpackExponent_packComponents,
    unpackSign_packComponents, Sign.ofBitVec_toBitVec, hmantissa]
  rw [if_neg (by decide), if_pos trivial, dif_neg hnot]
  rfl

/-- **Packing loses nothing.** -/
theorem unpack_pack {f : UnpackedFloat} (h : IsCanonical f) :
    (Float.Model.pack f).unpack = f := by
  show UnpackedFloat.unpack Format.binary64 (UnpackedFloat.pack Format.binary64 f) = f
  cases f with
  | infinity s => cases s <;> rfl
  | notANumber => exact unpack_packedNaN
  | zero s => exact unpack_packedZero
  | finite s m e hpos =>
    obtain ⟨-, hlt, hleast, hmost, hfull⟩ := h
    have hbias : (Format.binary64.exponentBias : ℤ) = 1023 := rfl
    have hbits : Format.binary64.mantissaBits = 53 := rfl
    have hplace : (BitVec.ofNat 11 (e + 1023 + (52 : ℕ)).toNat).toNat =
        (e + 1075).toNat := by
      rw [BitVec.toNat_ofNat, Nat.mod_eq_of_lt (by omega)]
      omega
    unfold UnpackedFloat.pack
    simp only [hbias, hbits]
    rw [if_neg (by omega)]
    -- The first digit of a full mantissa is implied by an exponent other than the first.
    by_cases hlong : 2 ^ 52 ≤ m
    · have hlog : m.log2 = 52 := by
        have hle := (Nat.le_log2 hpos.ne').mpr hlong
        have hlt := (Nat.log2_lt hpos.ne').mpr hlt
        omega
      have hdigits : (BitVec.ofNat 52 m).toNat = m - 2 ^ 52 := by
        rw [BitVec.toNat_ofNat]
        omega
      rw [if_pos (by omega)]
      exact unpack_packComponents hpos (by omega) (by omega) (by omega) (by omega)
    · obtain rfl : e = -1074 := hfull.resolve_left hlong
      have hlog : m.log2 < 52 := (Nat.log2_lt hpos.ne').mpr (by omega)
      rw [if_neg (by omega)]
      exact unpack_packComponents_zero hpos (Nat.mod_eq_of_lt (by omega))

/-! ### Units -/

/-- How many units a mantissa stands for with an exponent. -/
def size (m : ℕ) (e : ℤ) : ℕ := m * 2 ^ (e + 1074).toNat

/-- The first size that no finite double has. -/
def infinite : ℕ := size (2 ^ 53) 971

/-- A double in units.  An infinity is just longer than every finite double, and what is no number
counts as zero. -/
def units : UnpackedFloat → ℤ
  | .notANumber => 0
  | .infinity s => s.apply infinite
  | .zero _ => 0
  | .finite s m e _ => s.apply (size m e)

/-- A size is zero only without digits. -/
theorem size_pos {m : ℕ} (e : ℤ) (hm : 0 < m) : 0 < size m e :=
  Nat.mul_pos hm (Nat.two_pow_pos _)

/-- A larger exponent makes a larger double, whatever the digits are. -/
theorem size_lt_size_of_lt {m m' : ℕ} {e e' : ℤ} (h : Canonical m e) (h' : Canonical m' e')
    (he : e < e') : size m e < size m' e' := by
  have hleast := h.least
  have hfull : 2 ^ 52 ≤ m' := h'.full.resolve_right (by omega)
  calc m * 2 ^ (e + 1074).toNat
      < 2 ^ 53 * 2 ^ (e + 1074).toNat := Nat.mul_lt_mul_of_pos_right h.lt (Nat.two_pow_pos _)
    _ = 2 ^ 52 * 2 ^ ((e + 1074).toNat + 1) := by rw [Nat.pow_succ]; omega
    _ ≤ 2 ^ 52 * 2 ^ (e' + 1074).toNat :=
        Nat.mul_le_mul_left _ (Nat.pow_le_pow_right Nat.two_pos (by omega))
    _ ≤ m' * 2 ^ (e' + 1074).toNat := Nat.mul_le_mul_right _ hfull

/-- No finite double is as long as an infinity. -/
theorem size_lt_infinite {m : ℕ} {e : ℤ} (h : Canonical m e) : size m e < infinite := by
  have hmost := h.most
  calc m * 2 ^ (e + 1074).toNat
      < 2 ^ 53 * 2 ^ (e + 1074).toNat := Nat.mul_lt_mul_of_pos_right h.lt (Nat.two_pow_pos _)
    _ ≤ 2 ^ 53 * 2 ^ (971 + 1074 : ℤ).toNat :=
        Nat.mul_le_mul_left _ (Nat.pow_le_pow_right Nat.two_pos (by omega))

/-- Doubles of one sign are ordered by their exponents, and then by their digits. -/
theorem compare_size {m m' : ℕ} {e e' : ℤ} (h : Canonical m e) (h' : Canonical m' e') :
    (compare e e').then (compare m m') = compare (size m e) (size m' e') := by
  -- With different exponents the digits do not matter.
  rcases lt_trichotomy e e' with he | rfl | he
  · rw [compare_lt_iff_lt.mpr he, compare_lt_iff_lt.mpr (size_lt_size_of_lt h h' he)]
    rfl
  · have hpos : 0 < 2 ^ (e + 1074).toNat := Nat.two_pow_pos _
    have hdigits : compare m m' = compare (size m e) (size m' e) := by
      rcases lt_trichotomy m m' with hm | rfl | hm
      · exact (compare_lt_iff_lt.mpr hm).trans
          (compare_lt_iff_lt.mpr (Nat.mul_lt_mul_of_pos_right hm hpos)).symm
      · exact (compare_eq_iff_eq.mpr rfl).trans (compare_eq_iff_eq.mpr rfl).symm
      · exact (compare_gt_iff_gt.mpr hm).trans
          (compare_gt_iff_gt.mpr (Nat.mul_lt_mul_of_pos_right hm hpos)).symm
    rw [compare_eq_iff_eq.mpr rfl, hdigits]
    rfl
  · rw [compare_gt_iff_gt.mpr he, compare_gt_iff_gt.mpr (size_lt_size_of_lt h' h he)]
    rfl

/-- Among finite doubles the sign decides, or else the size. -/
theorem compare_finite {s t : Sign} {m m' : ℕ} {e e' : ℤ} (hm : 0 < m) (hm' : 0 < m')
    (h : Canonical m e) (h' : Canonical m' e') :
    (UnpackedFloat.finite s m e hm).compare (.finite t m' e' hm') = some .lt ↔
      units (.finite s m e hm) < units (.finite t m' e' hm') := by
  have hpos := size_pos e hm
  have hpos' := size_pos e' hm'
  -- Below zero the longer double is the smaller one.
  cases s <;> cases t <;> simp only [UnpackedFloat.compare, units, Sign.apply, compare_size h h']
  case negative.negative =>
    rw [Option.some_inj, Ordering.swap_eq_lt, compare_gt_iff_gt]
    omega
  case positive.positive =>
    rw [Option.some_inj, compare_lt_iff_lt]
    omega
  case negative.positive => exact iff_of_true trivial (by omega)
  case positive.negative => exact iff_of_false (by rintro ⟨⟩) (by omega)

/-- **Order.** Doubles that are numbers are ordered as their units. -/
theorem lt_iff {x y : UnpackedFloat} (hx : IsCanonical x) (hy : IsCanonical y)
    (hxn : x.isNaN = false) (hyn : y.isNaN = false) : x.lt y = true ↔ units x < units y := by
  have hinf : 0 < infinite := size_pos _ (Nat.two_pow_pos 53)
  rw [UnpackedFloat.lt, beq_iff_eq]
  -- Where not both are finite, the signs decide, or that an infinity is beyond every size.
  cases x with
  | notANumber => cases hxn
  | infinity s | zero s =>
    cases y with
    | notANumber => cases hyn
    | infinity t | zero t =>
      cases s <;> cases t <;> simp only [units, Sign.apply]
      all_goals
        first
        | exact iff_of_true rfl (by omega)
        | exact iff_of_false (by rintro ⟨⟩) (by omega)
    | finite t m e hm =>
      have hpos := size_pos e hm
      have hlt := size_lt_infinite hy
      cases s <;> cases t <;> simp only [units, Sign.apply]
      all_goals
        first
        | exact iff_of_true rfl (by omega)
        | exact iff_of_false (by rintro ⟨⟩) (by omega)
  | finite s m e hm =>
    have hpos := size_pos e hm
    have hlt := size_lt_infinite hx
    cases y with
    | notANumber => cases hyn
    | infinity t | zero t =>
      cases s <;> cases t <;> simp only [units, Sign.apply]
      all_goals
        first
        | exact iff_of_true rfl (by omega)
        | exact iff_of_false (by rintro ⟨⟩) (by omega)
    | finite t m' e' hm' => exact compare_finite hm hm' hx hy

/-! ### Doubles -/

/-- The parts that a double is made of. -/
def parts (x : Float) : UnpackedFloat := x.toModel.unpack

/-- The parts of a double are canonical. -/
theorem isCanonical_parts (x : Float) : IsCanonical (parts x) := isCanonical_unpack _

theorem isNaN_parts (x : Float) : (parts x).isNaN = x.isNaN := rfl

theorem lt_iff_parts {x y : Float} : x < y ↔ (parts x).lt (parts y) = true := decide_eq_true_iff

/-- Doubles that are numbers are ordered as their units. -/
theorem lt_iff_units {x y : Float} (hx : x.isNaN = false) (hy : y.isNaN = false) :
    x < y ↔ units (parts x) < units (parts y) := by
  rw [lt_iff_parts, lt_iff (isCanonical_parts x) (isCanonical_parts y) hx hy]

/-- What is no number is not less than anything. -/
theorem not_lt_of_isNaN {x y : Float} (h : x.isNaN = true) : ¬ x < y := by
  rw [lt_iff_parts, Bool.not_eq_true]
  rw [← isNaN_parts] at h
  cases hf : parts x with
  | notANumber => rfl
  | _ =>
    rw [hf] at h
    cases h

/-- The opposite parts have the opposite number of units. -/
theorem units_neg (f : UnpackedFloat) : units f.neg = -units f := by
  cases f with
  | notANumber => rfl
  | zero s => rfl
  | infinity s => cases s with
    | negative => exact (Int.neg_neg _).symm
    | positive => rfl
  | finite s m e hm => cases s with
    | negative => exact (Int.neg_neg _).symm
    | positive => rfl

/-- The parts of the opposite are the opposite parts. -/
theorem parts_neg (x : Float) : parts (-x) = (parts x).neg := by
  have hcanonical : IsCanonical (parts x).neg := by
    have h := isCanonical_parts x
    generalize parts x = f at h
    cases f <;> exact h
  exact unpack_pack hcanonical

end TurtleCurves.Binary64
