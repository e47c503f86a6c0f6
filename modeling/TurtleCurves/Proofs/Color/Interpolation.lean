import Mathlib.Algebra.BigOperators.Intervals
import TurtleCurves.Proofs.Color.Gradient
import TurtleCurves.Proofs.Exact.Scalar

namespace TurtleCurves

/-!
# Gradients as interpolation

A gradient is computed from the stretch between two stops that a number falls into.  In exact
arithmetic it is the piecewise linear interpolation of the stops, rounded at the end and nowhere
else.  The interpolation is written here as a sum of tents, one over each stop, which knows nothing
of stretches.

* `Channel`, `Rgb.amount` — the three channels of a colour as numbers;
* `Rgb.amount_blend` — a mixture is rounded half up, and never cut off;
* `Palette.interpolation p ch s` — the interpolation of a channel at the place `s`, with the stops
  at the whole numbers; `interpolation_stop` and `interpolation_between` are its values at a stop
  and between two of them;
* `Palette.place p t` — the place of a number, which is moved into `0 … 1` before;
* `Palette.amount_gradient` — a gradient is its interpolation, rounded half up;
* `Palette.interpolation_reversed` — the stops in reverse order;
* `Palette.gradient_interpolates` — what this says of gradients.
-/

/-! ### Channels -/

/-- A channel of a colour. -/
inductive Channel where
  | red
  | green
  | blue
  deriving DecidableEq, Repr

/-- A number moved into `0 … 1`. -/
theorem clamp_unit (t : ℝ) :
    Arith.clamp (@OfNat.ofNat ℝ 0 (Arith.instOfNat 0)) (@OfNat.ofNat ℝ 1 (Arith.instOfNat 1)) t =
      max 0 (min t 1) := by
  rw [exact_zero, exact_one, Arith.clamp]
  split
  · next hlow => rw [max_eq_left (le_trans (min_le_left t 1) hlow.le)]
  · next hlow =>
    have hzero : (0 : ℝ) ≤ min t 1 := le_min (not_lt.mp hlow) zero_le_one
    rw [max_eq_right hzero]
    split
    · next hhigh => rw [min_eq_right hhigh.le]
    · next hhigh => rw [min_eq_left (not_lt.mp hhigh)]

/-- A whole number is not changed by rounding. -/
theorem floor_add_half (n : ℕ) : ⌊(n : ℝ) + 1 / 2⌋ = n := by
  rw [Int.floor_natCast_add]
  norm_num

namespace Rgb

/-- A channel of a colour as a byte. -/
def byte (c : Rgb) : Channel → UInt8
  | .red => c.red
  | .green => c.green
  | .blue => c.blue

/-- A channel of a colour as a number. -/
def amount (c : Rgb) (ch : Channel) : ℕ := (c.byte ch).toNat

/-- A channel is at most 255. -/
theorem amount_le (c : Rgb) (ch : Channel) : c.amount ch ≤ 255 :=
  Nat.le_of_lt_succ (c.byte ch).toNat_lt

/-- Colours are equal when their channels are. -/
theorem ext_amount {c d : Rgb} (h : ∀ ch, c.amount ch = d.amount ch) : c = d := by
  obtain ⟨red, green, blue⟩ := c
  obtain ⟨red', green', blue'⟩ := d
  obtain rfl : red = red' := UInt8.toNat_inj.mp (h .red)
  obtain rfl : green = green' := UInt8.toNat_inj.mp (h .green)
  obtain rfl : blue = blue' := UInt8.toNat_inj.mp (h .blue)
  rfl

/-- The byte of a number in range is the number, rounded half up. -/
theorem toNat_channel {x : ℝ} (hlo : 0 ≤ x) (hhi : x ≤ 255) :
    ((channel x).toNat : ℤ) = ⌊x + 1 / 2⌋ := by
  have hround : Arith.round x = (⌊x + 1 / 2⌋ : ℝ) := if_pos hlo
  have hfloor : 0 ≤ ⌊x + 1 / 2⌋ := Int.floor_nonneg.mpr (by linarith)
  have hceil : ⌊x + 1 / 2⌋ < 256 := Int.floor_lt.mpr (by push_cast; linarith)
  rw [channel, hround, Arith.truncateNat, truncate_intCast, Nat.min_eq_right (by omega),
    UInt8.toNat_ofNat']
  omega

/-- A mixture is a number between the two channels, rounded half up. -/
theorem amount_blend (c d : Rgb) (ch : Channel) {t : ℝ} (ht : 0 ≤ t) (ht' : t ≤ 1) :
    ((c.blend d t).amount ch : ℤ) =
      ⌊(c.amount ch : ℝ) + ((d.amount ch : ℝ) - c.amount ch) * t + 1 / 2⌋ := by
  have hbyte : (c.blend d t).byte ch = blendChannel (c.byte ch) (d.byte ch) t := by
    cases ch <;> simp only [blend, byte, clamp_unit, min_eq_left ht', max_eq_right ht]
  -- The number that is rounded lies between two bytes, so that nothing is cut off.
  have hc : (c.amount ch : ℝ) ≤ 255 := Nat.cast_le_ofNat.mpr (c.amount_le ch)
  have hd : (d.amount ch : ℝ) ≤ 255 := Nat.cast_le_ofNat.mpr (d.amount_le ch)
  obtain ⟨hlo, hhi⟩ := mem_Icc_of_part (a := (c.amount ch : ℝ)) (b := d.amount ch) ht ht'
  rw [amount, hbyte]
  refine toNat_channel (le_trans ?_ hlo) (le_trans hhi ?_)
  · exact le_min (Nat.cast_nonneg _) (Nat.cast_nonneg _)
  · exact max_le hc hd

end Rgb

/-! ### Interpolation -/

namespace Palette

/-- The tent over the stop `k`: `1` there, `0` from the next stops on, and linear in between. -/
noncomputable def tent (k : ℕ) (s : ℝ) : ℝ := max 0 (1 - |s - k|)

/-- The piecewise linear interpolation of a channel at the place `s`; the stop `k` is at `k`. -/
noncomputable def interpolation (p : Palette) (ch : Channel) (s : ℝ) : ℝ :=
  ∑ k ∈ Finset.range p.size, (p.get k).amount ch * tent k s

/-- The place of `t`: it is moved into `0 … 1`, and the stops are spread evenly from `0` to `1`. -/
noncomputable def place (p : Palette) (t : ℝ) : ℝ := max 0 (min t 1) * (p.size - 1 : ℕ)

/-- The stops in reverse order. -/
def reversed (p : Palette) : Palette := ⟨p.colors.reverse, by simp [p.ne_nil]⟩

section Tents

variable {k : ℕ} {s : ℝ}

/-- A tent does not reach the next stop. -/
theorem tent_of_far (h : 1 ≤ |s - k|) : tent k s = 0 := max_eq_left (by linarith)

/-- On its right side a tent falls. -/
theorem tent_of_le (h : (k : ℝ) ≤ s) (h' : s ≤ k + 1) : tent k s = 1 - (s - k) := by
  rw [tent, abs_of_nonneg (sub_nonneg.mpr h), max_eq_right (by linarith)]

/-- On its left side it rises. -/
theorem tent_of_ge (h : (k : ℝ) - 1 ≤ s) (h' : s ≤ k) : tent k s = 1 - (k - s) := by
  rw [tent, abs_of_nonpos (sub_nonpos.mpr h'), neg_sub, max_eq_right (by linarith)]

end Tents

variable (p : Palette) (ch : Channel)

/-- At a stop the interpolation is that stop. -/
theorem interpolation_stop {k : ℕ} (hk : k < p.size) :
    p.interpolation ch k = (p.get k).amount ch := by
  have hfar : ∀ j ∈ Finset.range p.size, j ≠ k → ((p.get j).amount ch : ℝ) * tent j k = 0 := by
    intro j _ hne
    have hdistance : (1 : ℤ) ≤ |(k : ℤ) - j| := Int.one_le_abs (by omega)
    rw [tent_of_far (by exact_mod_cast hdistance), mul_zero]
  rw [interpolation, Finset.sum_eq_single_of_mem k (Finset.mem_range.mpr hk) hfar,
    tent_of_le (le_refl _) (by linarith), sub_self, sub_zero, mul_one]

/-- Between two stops only their tents count, and they add up to a mixture. -/
theorem interpolation_between {k : ℕ} (hk : k + 1 < p.size) {s : ℝ} (hs : (k : ℝ) ≤ s)
    (hs' : s ≤ k + 1) :
    p.interpolation ch s =
      (p.get k).amount ch +
        (((p.get (k + 1)).amount ch : ℝ) - (p.get k).amount ch) * (s - k) := by
  have hfar : ∀ j ∈ Finset.range p.size, j ≠ k ∧ j ≠ k + 1 →
      ((p.get j).amount ch : ℝ) * tent j s = 0 := by
    rintro j - ⟨hne, hne'⟩
    -- Any other stop is at least one place away from the stretch.
    rcases Nat.lt_or_gt_of_ne hne with hlt | hgt
    · have hle : (j : ℝ) + 1 ≤ k := by exact_mod_cast hlt
      rw [tent_of_far (le_abs.mpr (.inl (by linarith))), mul_zero]
    · have hle : (k : ℝ) + 1 + 1 ≤ j := by exact_mod_cast (show k + 1 + 1 ≤ j by omega)
      rw [tent_of_far (le_abs.mpr (.inr (by linarith))), mul_zero]
  have hsum := Finset.sum_eq_add_of_mem k (k + 1) (Finset.mem_range.mpr (by omega))
    (Finset.mem_range.mpr hk) (by omega) hfar
  have hright : tent (k + 1) s = s - k := by
    rw [tent_of_ge (by push_cast; linarith) (by push_cast; linarith)]
    push_cast
    ring
  rw [interpolation, hsum, tent_of_le hs hs', hright]
  ring

/-- The stops in reverse order, one by one. -/
theorem get_reversed {k : ℕ} (hk : k < p.size) : p.reversed.get (p.size - 1 - k) = p.get k := by
  have hsize : p.reversed.size = p.size := List.length_reverse
  have hstop := p.reversed.getElem?_colors (i := p.size - 1 - k) (by omega)
  have hlength : p.colors.length = p.size := rfl
  have hback : p.size - 1 - (p.size - 1 - k) = k := by omega
  rw [reversed, List.getElem?_reverse (by omega), hlength, hback, p.getElem?_colors hk] at hstop
  exact (Option.some.inj hstop).symm

/-- The stops in reverse order give the interpolation from the other end. -/
theorem interpolation_reversed (s : ℝ) :
    p.reversed.interpolation ch ((p.size - 1 : ℕ) - s) = p.interpolation ch s := by
  have hsize : p.reversed.size = p.size := List.length_reverse
  have hpos := p.size_pos
  -- The sum is taken from the other end, and the tents are mirrored.
  rw [interpolation, interpolation, hsize, ← Finset.sum_range_reflect]
  refine Finset.sum_congr rfl fun k hk => ?_
  have hlt : k < p.size := Finset.mem_range.mp hk
  have htent : tent (p.size - 1 - k) ((p.size - 1 : ℕ) - s) = tent k s := by
    have hk' : k ≤ p.size - 1 := by omega
    rw [tent, tent, Nat.cast_sub hk', sub_sub_sub_cancel_left, abs_sub_comm]
  rw [p.get_reversed hlt, htent]

/-! ### Places -/

/-- No place is before the first stop. -/
theorem place_nonneg (t : ℝ) : 0 ≤ p.place t :=
  mul_nonneg (le_max_left _ _) (Nat.cast_nonneg _)

/-- No place is behind the last one. -/
theorem place_le (t : ℝ) : p.place t ≤ (p.size - 1 : ℕ) :=
  mul_le_of_le_one_left (Nat.cast_nonneg _) (max_le zero_le_one (min_le_right _ _))

/-- What is before `0` has the place of the first stop. -/
theorem place_of_le_zero {t : ℝ} (h : t ≤ 0) : p.place t = 0 := by
  rw [place, max_eq_left (le_trans (min_le_left t 1) h), zero_mul]

/-- What is behind `1` has that of the last one. -/
theorem place_of_one_le {t : ℝ} (h : 1 ≤ t) : p.place t = (p.size - 1 : ℕ) := by
  rw [place, min_eq_right h, max_eq_right zero_le_one, one_mul]

/-- Between them places are in proportion. -/
theorem place_of_mem {t : ℝ} (h : 0 ≤ t) (h' : t ≤ 1) : p.place t = t * (p.size - 1 : ℕ) := by
  rw [place, min_eq_left h', max_eq_right h]

/-- From the other end the place is the mirrored one. -/
theorem place_reversed (t : ℝ) : p.reversed.place (1 - t) = (p.size - 1 : ℕ) - p.place t := by
  have hsize : p.reversed.size = p.size := List.length_reverse
  have hflip : max 0 (min (1 - t) 1) = 1 - max 0 (min t 1) := by
    -- Being moved into `0 … 1` is mirrored on each of its three pieces.
    rcases le_total t 0 with ht | ht
    · rw [min_eq_right (by linarith), min_eq_left (by linarith), max_eq_left ht,
        max_eq_right zero_le_one, sub_zero]
    · rw [min_eq_left (by linarith), max_eq_right (le_min ht zero_le_one)]
      rcases le_total t 1 with ht' | ht'
      · rw [min_eq_left ht', max_eq_right (by linarith)]
      · rw [min_eq_right ht', max_eq_left (by linarith), sub_self]
  rw [place, place, hsize, hflip]
  ring

/-! ### Gradients -/

/-- With two stops or more, a gradient is a mixture of the two stops around its place. -/
theorem gradient_eq_blend (hmany : 2 ≤ p.size) (t : ℝ) :
    ∃ k, k + 1 < p.size ∧ (k : ℝ) ≤ p.place t ∧ p.place t ≤ k + 1 ∧
      p.gradient t = (p.get k).blend (p.get (k + 1)) (p.place t - k) := by
  have hindex : Arith.truncateNat (Arith.floor (p.place t)) = ⌊p.place t⌋₊ := by
    rw [exact_floor, Arith.truncateNat, truncate_intCast, Int.floor_toNat]
  refine ⟨min ⌊p.place t⌋₊ (p.size - 2), by omega, ?_, ?_, ?_⟩
  · have hle : (min ⌊p.place t⌋₊ (p.size - 2) : ℕ) ≤ (⌊p.place t⌋₊ : ℝ) :=
      Nat.cast_le.mpr (Nat.min_le_left _ _)
    exact hle.trans (Nat.floor_le (p.place_nonneg t))
  · -- The last stretch is also the one of its own end.
    rcases le_total ⌊p.place t⌋₊ (p.size - 2) with hin | hlast
    · rw [Nat.min_eq_left hin]
      exact (Nat.lt_floor_add_one _).le
    · rw [Nat.min_eq_right hlast]
      have hend := p.place_le t
      rwa [show p.size - 1 = p.size - 2 + 1 by omega, Nat.cast_succ] at hend
  · rw [← hindex]
    simp only [gradient, clamp_unit, if_neg (show p.size ≠ 1 by omega)]
    rfl

/-- **A gradient is its interpolation,** rounded half up. -/
theorem amount_gradient (t : ℝ) :
    ((p.gradient t).amount ch : ℤ) = ⌊p.interpolation ch (p.place t) + 1 / 2⌋ := by
  -- One stop has no stretch, and gives its own colour everywhere.
  by_cases hone : p.size = 1
  · have hstart : p.place t = (0 : ℕ) := by
      rw [place, hone, Nat.sub_self, Nat.cast_zero, mul_zero]
    rw [gradient, if_pos hone, hstart, p.interpolation_stop ch p.size_pos, floor_add_half]
  · have hmany : 2 ≤ p.size := by
      have hpos := p.size_pos
      omega
    obtain ⟨k, hk, hlo, hhi, hgradient⟩ := p.gradient_eq_blend hmany t
    rw [hgradient, Rgb.amount_blend _ _ ch (by linarith) (by linarith),
      p.interpolation_between ch hk hlo hhi]

/-! ### Stretches -/

/-- The part of `0 … 1` between the stop `k` and the next one. -/
def stretch (k : ℕ) : Set ℝ :=
  Set.Icc ((k : ℝ) / (p.size - 1 : ℕ)) ((k + 1 : ℝ) / (p.size - 1 : ℕ))

/-- The places of a stretch are those between its stops. -/
theorem place_of_mem_stretch {k : ℕ} (hk : k + 1 < p.size) {t : ℝ} (ht : t ∈ p.stretch k) :
    p.place t = t * (p.size - 1 : ℕ) ∧ (k : ℝ) ≤ p.place t ∧ p.place t ≤ k + 1 := by
  have hpos : (0 : ℝ) < (p.size - 1 : ℕ) := Nat.cast_pos.mpr (by omega)
  obtain ⟨hlo, hhi⟩ := ht
  have hlo' := (div_le_iff₀ hpos).mp hlo
  have hhi' := (le_div_iff₀ hpos).mp hhi
  have hend : (k : ℝ) + 1 ≤ (p.size - 1 : ℕ) := by
    exact_mod_cast (show k + 1 ≤ p.size - 1 by omega)
  have hplace : p.place t = t * (p.size - 1 : ℕ) :=
    p.place_of_mem (le_trans (by positivity) hlo) (hhi.trans ((div_le_one hpos).mpr hend))
  rw [hplace]
  exact ⟨rfl, hlo', hhi'⟩

/-- On a stretch the interpolation goes along a line, and does not leave its two stops. -/
theorem interpolation_stretch {k : ℕ} (hk : k + 1 < p.size) {t : ℝ} (ht : t ∈ p.stretch k) :
    p.interpolation ch (p.place t) =
        (p.get k).amount ch + (((p.get (k + 1)).amount ch : ℝ) - (p.get k).amount ch) *
          (t * (p.size - 1 : ℕ) - k) ∧
      p.interpolation ch (p.place t) ∈
        Set.Icc ((min ((p.get k).amount ch) ((p.get (k + 1)).amount ch) : ℕ) : ℝ)
          (max ((p.get k).amount ch) ((p.get (k + 1)).amount ch) : ℕ) := by
  obtain ⟨hplace, hlo, hhi⟩ := p.place_of_mem_stretch hk ht
  rw [p.interpolation_between ch hk hlo hhi, Nat.cast_min, Nat.cast_max, ← hplace]
  exact ⟨rfl, mem_Icc_of_part (by linarith) (by linarith)⟩

/-- A channel keeps its direction on a stretch. -/
theorem amount_gradient_le {k : ℕ} (hk : k + 1 < p.size) {t u : ℝ} (ht : t ∈ p.stretch k)
    (hu : u ∈ p.stretch k)
    (h : 0 ≤ (((p.get (k + 1)).amount ch : ℝ) - (p.get k).amount ch) * (u - t)) :
    (p.gradient t).amount ch ≤ (p.gradient u).amount ch := by
  have hline : p.interpolation ch (p.place t) ≤ p.interpolation ch (p.place u) := by
    have hpos : (0 : ℝ) ≤ (p.size - 1 : ℕ) := Nat.cast_nonneg _
    rw [(p.interpolation_stretch ch hk ht).1, (p.interpolation_stretch ch hk hu).1]
    nlinarith [mul_nonneg h hpos]
  -- Rounding is monotone.
  have hfloor := Int.floor_mono (add_le_add_left hline (1 / 2))
  rw [← p.amount_gradient ch t, ← p.amount_gradient ch u] at hfloor
  exact_mod_cast hfloor

/-- **Between two stops** a channel is between their channels. -/
theorem amount_gradient_mem {k : ℕ} (hk : k + 1 < p.size) {t : ℝ} (ht : t ∈ p.stretch k) :
    (p.gradient t).amount ch ∈
      Set.Icc (min ((p.get k).amount ch) ((p.get (k + 1)).amount ch))
        (max ((p.get k).amount ch) ((p.get (k + 1)).amount ch)) := by
  obtain ⟨hlo, hhi⟩ := (p.interpolation_stretch ch hk ht).2
  have hlo' := Int.floor_mono (add_le_add_left hlo (1 / 2))
  have hhi' := Int.floor_mono (add_le_add_left hhi (1 / 2))
  rw [floor_add_half, ← p.amount_gradient ch t] at hlo' hhi'
  exact ⟨by exact_mod_cast hlo', by exact_mod_cast hhi'⟩

/-! ### What gradients do -/

/-- The gradient at a stop is the stop. -/
theorem gradient_of_place {t : ℝ} {k : ℕ} (hk : k < p.size) (h : p.place t = k) :
    p.gradient t = p.get k := by
  refine Rgb.ext_amount fun ch => ?_
  have hamount := p.amount_gradient ch t
  rw [h, p.interpolation_stop ch hk, floor_add_half] at hamount
  exact_mod_cast hamount

/-- Reversing the stops turns the gradient around. -/
theorem gradient_reversed (t : ℝ) : p.reversed.gradient (1 - t) = p.gradient t := by
  refine Rgb.ext_amount fun ch => ?_
  have hamount := p.reversed.amount_gradient ch (1 - t)
  rw [place_reversed, interpolation_reversed, ← p.amount_gradient ch t] at hamount
  exact_mod_cast hamount

/-- **Gradients interpolate.** In exact arithmetic each channel of a gradient is the piecewise
linear interpolation of the stops, rounded half up.  With two stops or more the stops themselves lie
evenly from `0` to `1`, and the outermost ones go on beyond.  Between two neighbours the
interpolation and the channel stay between theirs, so that the byte cuts nothing off, and the
channel goes one way.  The reversed stops give the gradient from the other end. -/
theorem gradient_interpolates (p : Palette) :
    (∀ ch t, ((p.gradient t).amount ch : ℤ) = ⌊p.interpolation ch (p.place t) + 1 / 2⌋) ∧
      (2 ≤ p.size →
        (∀ k < p.size, p.gradient ((k : ℝ) / (p.size - 1 : ℕ)) = p.get k) ∧
          (∀ t : ℝ, t ≤ 0 → p.gradient t = p.get 0) ∧
          ∀ t : ℝ, 1 ≤ t → p.gradient t = p.get (p.size - 1)) ∧
      (∀ k, k + 1 < p.size → ∀ ch,
        ((p.get k).amount ch ≤ (p.get (k + 1)).amount ch →
          MonotoneOn (fun t : ℝ => (p.gradient t).amount ch) (p.stretch k)) ∧
        ((p.get (k + 1)).amount ch ≤ (p.get k).amount ch →
          AntitoneOn (fun t : ℝ => (p.gradient t).amount ch) (p.stretch k)) ∧
        ∀ t ∈ p.stretch k,
          p.interpolation ch (p.place t) ∈
              Set.Icc ((min ((p.get k).amount ch) ((p.get (k + 1)).amount ch) : ℕ) : ℝ)
                (max ((p.get k).amount ch) ((p.get (k + 1)).amount ch) : ℕ) ∧
            (p.gradient t).amount ch ∈
              Set.Icc (min ((p.get k).amount ch) ((p.get (k + 1)).amount ch))
                (max ((p.get k).amount ch) ((p.get (k + 1)).amount ch))) ∧
      ∀ t : ℝ, p.reversed.gradient (1 - t) = p.gradient t := by
  have hpos := p.size_pos
  refine ⟨p.amount_gradient, fun hmany => ⟨?_, ?_, ?_⟩, fun k hk ch => ⟨?_, ?_, ?_⟩,
    p.gradient_reversed⟩
  · intro k hk
    have hcount : (0 : ℝ) < (p.size - 1 : ℕ) := Nat.cast_pos.mpr (by omega)
    have hle : (k : ℝ) ≤ (p.size - 1 : ℕ) := Nat.cast_le.mpr (by omega)
    -- The place of this parameter is the stop itself.
    refine p.gradient_of_place hk ?_
    rw [p.place_of_mem (by positivity) ((div_le_one hcount).mpr hle), div_mul_cancel₀ _ hcount.ne']
  · intro t ht
    exact p.gradient_of_place hpos (by rw [p.place_of_le_zero ht, Nat.cast_zero])
  · intro t ht
    exact p.gradient_of_place (by omega) (p.place_of_one_le ht)
  -- Within a stretch the channel is linear in the place; the sign of its slope decides.
  · intro hup t ht u hu htu
    have hspan : (0 : ℝ) ≤ ((p.get (k + 1)).amount ch : ℝ) - (p.get k).amount ch :=
      sub_nonneg.mpr (Nat.cast_le.mpr hup)
    exact p.amount_gradient_le ch hk ht hu (mul_nonneg hspan (sub_nonneg.mpr htu))
  · intro hdown t ht u hu htu
    have hspan : ((p.get (k + 1)).amount ch : ℝ) - (p.get k).amount ch ≤ 0 :=
      sub_nonpos.mpr (Nat.cast_le.mpr hdown)
    exact p.amount_gradient_le ch hk hu ht
      (mul_nonneg_of_nonpos_of_nonpos hspan (sub_nonpos.mpr htu))
  · intro t ht
    exact ⟨(p.interpolation_stretch ch hk ht).2, p.amount_gradient_mem ch hk ht⟩

/-- Three stops: halfway to the second one red is `100.5`, and on the way to the third red falls and
green rises. -/
theorem gradient_interpolates_three_stops :
    let p := ofList [Rgb.black, ⟨201, 0, 255⟩, ⟨0, 255, 255⟩]
    (2 ≤ p.size ∧ 1 + 1 < p.size ∧ (p.get 2).amount .red ≤ (p.get 1).amount .red ∧
        (p.get 1).amount .green ≤ (p.get 2).amount .green) ∧
      (p.gradient (1 / 4 : ℝ)).amount .red = 101 ∧
      p.gradient (1 / 2 : ℝ) = ⟨201, 0, 255⟩ ∧
      p.gradient (-1 : ℝ) = Rgb.black ∧ p.gradient (2 : ℝ) = ⟨0, 255, 255⟩ ∧
      AntitoneOn (fun t : ℝ => (p.gradient t).amount .red) (p.stretch 1) ∧
      MonotoneOn (fun t : ℝ => (p.gradient t).amount .green) (p.stretch 1) ∧
      (∀ t ∈ p.stretch 1, (p.gradient t).amount .red ∈ Set.Icc 0 201) ∧
      p.reversed.gradient (1 - 1 / 2 : ℝ) = p.gradient (1 / 2 : ℝ) := by
  intro p
  have hmany : 2 ≤ p.size := by decide
  have hfirst : 0 + 1 < p.size := by decide
  have hsecond : 1 + 1 < p.size := by decide
  have hred : (p.get 2).amount .red ≤ (p.get 1).amount .red := by decide
  have hgreen : (p.get 1).amount .green ≤ (p.get 2).amount .green := by decide
  obtain ⟨hround, hstops, hstretch, hback⟩ := gradient_interpolates p
  obtain ⟨hat, hbefore, hafter⟩ := hstops hmany
  have hcount : ((p.size - 1 : ℕ) : ℝ) = 2 := rfl
  refine ⟨⟨hmany, hsecond, hred, hgreen⟩, ?_, ?_, hbefore (-1) (by norm_num),
    hafter 2 one_le_two, (hstretch 1 hsecond .red).2.1 hred, (hstretch 1 hsecond .green).1 hgreen,
    fun t ht => ((hstretch 1 hsecond .red).2.2 t ht).2, hback (1 / 2)⟩
  · have hplace : p.place (1 / 4) = 1 / 2 := by
      rw [p.place_of_mem (by norm_num) (by norm_num), hcount]
      norm_num
    have hblack : ((p.get 0).amount .red : ℝ) = 0 := Nat.cast_zero
    have hnext : ((p.get (0 + 1)).amount .red : ℝ) = 201 := rfl
    -- Halfway between 0 and 201 lies 100.5, which rounds up.
    have hvalue := hround .red (1 / 4)
    rw [hplace, p.interpolation_between .red hfirst (by norm_num) (by norm_num), hblack, hnext]
      at hvalue
    norm_num at hvalue
    exact_mod_cast hvalue
  · have hstop := hat 1 hmany
    rw [hcount, Nat.cast_one] at hstop
    exact hstop

end Palette

end TurtleCurves
