import TurtleCurves.Proofs.Decimal.Window

namespace TurtleCurves.Decimal

/-!
# Doubles and their readings

* `Reading.FiniteBits` — sign, exponent and fraction of the bits of a finite double;
* `Reading.canonical_of_ofBits` — such bits are read as a canonical dyadic;
* `Reading.bits_eq_of_finite` — sign, mantissa and exponent determine them;
* `Reading.ofFloat_injective` — a reading determines the double; there is one double that is no
  number.
-/

namespace Reading

/-- The parts of the bits of a finite double: either the exponent field is zero, or a leading bit
is added to the fraction. -/
structure FiniteBits (bits : Nat) (d : Dyadic) : Prop where
  field_ne : bits / 2 ^ 52 % 2 ^ 11 ≠ 2047
  negative : d.negative = decide (bits / 2 ^ 63 % 2 = 1)
  parts :
    bits / 2 ^ 52 % 2 ^ 11 = 0 ∧ d.mantissa = bits % 2 ^ 52 ∧ d.exponent = -1074 ∧
        d.boundary = false ∨
      0 < bits / 2 ^ 52 % 2 ^ 11 ∧ d.mantissa = 2 ^ 52 + bits % 2 ^ 52 ∧
        d.exponent = (bits / 2 ^ 52 % 2 ^ 11 : Nat) - 1075 ∧
        (d.boundary = true ↔ bits % 2 ^ 52 = 0 ∧ 1 < bits / 2 ^ 52 % 2 ^ 11)

/-- What is read as finite has the fields of a finite number. -/
theorem finiteBits_of_ofBits {bits : Nat} {d : Dyadic} (h : ofBits bits = .finite d) :
    FiniteBits bits d := by
  unfold ofBits at h
  simp only [Nat.pow_eq] at h
  split at h
  · split at h <;> cases h
  -- A field of zero is that of the numbers without the leading bit.
  · next hfield =>
    split at h
    · next hzero =>
      injection h with h
      subst h
      exact ⟨hfield, rfl, .inl ⟨hzero, rfl, rfl, rfl⟩⟩
    · next hzero =>
      injection h with h
      subst h
      refine ⟨hfield, rfl, .inr ⟨Nat.pos_of_ne_zero hzero, rfl, rfl, ?_⟩⟩
      rw [Bool.and_eq_true, decide_eq_true_iff, decide_eq_true_iff]

/-- The other readings: bits with the greatest exponent field. -/
theorem field_of_ofBits_infinite {bits : Nat} {negative : Bool}
    (h : ofBits bits = .infinite negative) :
    bits / 2 ^ 52 % 2 ^ 11 = 2047 ∧ bits % 2 ^ 52 = 0 ∧
      negative = decide (bits / 2 ^ 63 % 2 = 1) := by
  unfold ofBits at h
  simp only [Nat.pow_eq] at h
  split at h
  · next hfield =>
    split at h
    -- With the field of ones a fraction other than zero means NaN.
    · next hzero =>
      injection h with h
      exact ⟨hfield, hzero, h.symm⟩
    · cases h
  · split at h <;> cases h

/-- What is read as no number has the last exponent and some digit. -/
theorem field_of_ofBits_nan {bits : Nat} (h : ofBits bits = .nan) :
    bits / 2 ^ 52 % 2 ^ 11 = 2047 ∧ bits % 2 ^ 52 ≠ 0 := by
  unfold ofBits at h
  simp only [Nat.pow_eq] at h
  split at h
  · next hfield =>
    split at h
    · cases h
    · next hne => exact ⟨hfield, hne⟩
  · split at h <;> cases h

/-- Finite bits are read as a canonical dyadic. -/
theorem canonical_of_ofBits {bits : Nat} {d : Dyadic} (h : ofBits bits = .finite d) :
    d.Canonical := by
  have hbits := finiteBits_of_ofBits h
  have hfield := Nat.mod_lt (bits / 2 ^ 52) (show 0 < 2 ^ 11 by norm_num)
  have hfraction := Nat.mod_lt bits (show 0 < 2 ^ 52 by norm_num)
  -- The leading bit is there unless the exponent is the least one.
  rcases hbits.parts with ⟨_, hm, he, hb⟩ | ⟨hpos, hm, he, hb⟩
  · refine ⟨by omega, by omega, .inr he, ?_⟩
    rw [hb, he]
    exact ⟨(nomatch ·), fun hlt => absurd hlt.2 (lt_irrefl _)⟩
  · refine ⟨by omega, by omega, .inl (by omega), ?_⟩
    rw [hb]
    constructor
    · rintro ⟨hzero, hone⟩
      exact ⟨by omega, by omega⟩
    · rintro ⟨hmantissa, hexponent⟩
      exact ⟨by omega, by omega⟩

/-- **Finite bits are determined** by sign, mantissa and exponent. -/
theorem bits_eq_of_finite {bits bits' : Nat} (hlt : bits < 2 ^ 64) (hlt' : bits' < 2 ^ 64)
    {d d' : Dyadic} (h : ofBits bits = .finite d) (h' : ofBits bits' = .finite d')
    (hnegative : d.negative = d'.negative) (hmantissa : d.mantissa = d'.mantissa)
    (hexponent : d.exponent = d'.exponent) : bits = bits' := by
  have hbits := finiteBits_of_ofBits h
  have hbits' := finiteBits_of_ofBits h'
  have hsign : bits / 2 ^ 63 % 2 = 1 ↔ bits' / 2 ^ 63 % 2 = 1 := by
    rw [hbits.negative, hbits'.negative, decide_eq_decide] at hnegative
    exact hnegative
  have hfield : bits / 2 ^ 52 % 2 ^ 11 = bits' / 2 ^ 52 % 2 ^ 11 ∧
      bits % 2 ^ 52 = bits' % 2 ^ 52 := by
    -- The mantissa tells the two kinds of numbers apart, as only one has its leading bit set.
    rcases hbits.parts with ⟨_, hm, he, _⟩ | ⟨_, hm, he, _⟩ <;>
      rcases hbits'.parts with ⟨_, hm', he', _⟩ | ⟨_, hm', he', _⟩ <;> omega
  omega

/-! ### Doubles -/

theorem toBits_injective {x y : Float} (h : x.toBits.toNat = y.toBits.toNat) : x = y := by
  obtain ⟨⟨xbits, _⟩⟩ := x
  obtain ⟨⟨ybits, _⟩⟩ := y
  have hbits : xbits = ybits := UInt64.toNat_inj.mp h
  subst hbits
  rfl

theorem toBits_lt (x : Float) : x.toBits.toNat < 2 ^ 64 := x.toBits.toNat_lt

/-- There is one double that is no number. -/
theorem toBits_of_nan {x : Float} (h : ofFloat x = .nan) :
    x.toBits.toNat = 2047 * 2 ^ 52 + 2 ^ 51 := by
  obtain ⟨hfield, hfraction⟩ := field_of_ofBits_nan h
  -- A valid double whose exponent is full and whose fraction is not zero is the one NaN.
  have hexponent : @Float.Model.UnpackedFloat.unpackExponent .binary64
      x.toModel.toBits.toBitVec = -1#_ := by
    apply BitVec.eq_of_toNat_eq
    simp only [Float.Model.UnpackedFloat.unpackExponent, BitVec.extractLsb, BitVec.extractLsb',
      BitVec.toNat_cast, BitVec.toNat_ofNat, Nat.shiftRight_eq_div_pow]
    exact hfield
  have hmantissa : @Float.Model.UnpackedFloat.unpackMantissa .binary64
      x.toModel.toBits.toBitVec ≠ 0#_ := by
    intro hzero
    have hnat := congrArg BitVec.toNat hzero
    simp only [Float.Model.UnpackedFloat.unpackMantissa, BitVec.extractLsb, BitVec.extractLsb',
      BitVec.toNat_cast, BitVec.toNat_ofNat, Nat.shiftRight_eq_div_pow, Nat.pow_zero,
      Nat.div_one, Nat.zero_mod] at hnat
    exact hfraction hnat
  have hbits := x.toModel.valid.eq_packedNaN hexponent hmantissa
  have hnat := congrArg BitVec.toNat hbits
  exact hnat

/-- **A reading determines the double,** as far as sign, mantissa and exponent go. -/
theorem ofFloat_injective : Function.Injective ofFloat := by
  intro x y h
  apply toBits_injective
  -- All NaNs are one number, so they have one pattern; the others have the pattern of their parts.
  cases hx : ofFloat x with
  | nan => rw [toBits_of_nan hx, toBits_of_nan (h.symm.trans hx)]
  | infinite negative =>
    obtain ⟨hfield, hfraction, hnegative⟩ := field_of_ofBits_infinite hx
    obtain ⟨hfield', hfraction', hnegative'⟩ := field_of_ofBits_infinite (h.symm.trans hx)
    have hlt := toBits_lt x
    have hlt' := toBits_lt y
    rw [hnegative, decide_eq_decide] at hnegative'
    omega
  | finite d =>
    exact bits_eq_of_finite (toBits_lt x) (toBits_lt y) hx (h.symm.trans hx) rfl rfl rfl

end Reading

end TurtleCurves.Decimal
