import TurtleCurves.Proofs.Exact.Wholes
import TurtleCurves.Color.Source

namespace TurtleCurves

/-!
# The ends of a gradient

A gradient is computed by a product, a rounding down, a difference and a mixture of bytes.  At its
two ends all of these are whole numbers, so that an arithmetic that is exact on them gives the first
and the last stop without an error.

* `Rgb.blend_zero`, `Rgb.blend_one` — a mixture at its ends;
* `Palette.head?_colors`, `Palette.getLast?_colors` — the outermost stops by their indices;
* `Palette.gradient_of_stretches` — a gradient at a whole number of stretches, and from it
  `Palette.gradient_zero`, `Palette.gradient_one`, a gradient at its ends;
* `ColorSource.progress_first`, `ColorSource.progress_last` — the first and the last of several
  strokes.
-/

variable {α : Type}

/-! ### Mixtures -/

namespace Rgb

variable [Arith α] (W : ExactWholes α) {x t : α}

/-- A byte is a number. -/
theorem stands_level (b : UInt8) : W.Stands (level b : α) b.toNat := by
  have hbyte : b.toNat < 256 := b.toNat_lt
  have hbound := W.byte_le
  exact W.ofNat (by omega)

/-- That number is read back as the byte. -/
theorem channel_of_stands {b : UInt8} (h : W.Stands x b.toNat) : channel x = b := by
  have hbyte : b.toNat < 256 := b.toNat_lt
  rw [channel, W.truncateNat_eq (W.round h), Nat.min_eq_right (by omega), UInt8.ofNat_toNat]

/-- The mixture of two channels at one of its ends. -/
theorem stands_blendChannel (a b : UInt8) {k : Int} (hk : k = 0 ∨ k = 1) (ht : W.Stands t k) :
    W.Stands (level a + (level b - level a) * t) (a.toNat + (b.toNat - a.toNat) * k) := by
  have ha : a.toNat < 256 := a.toNat_lt
  have hb : b.toNat < 256 := b.toNat_lt
  have hbound := W.byte_le
  have hspan : W.Stands (level b - level a : α) (b.toNat - a.toNat) :=
    W.sub (stands_level W b) (stands_level W a) (by omega)
  -- At the ends the product is zero or the whole span, so that no byte is left.
  refine W.add (stands_level W a) (W.mul hspan ht ?_) ?_
  · rcases hk with rfl | rfl <;> omega
  · rcases hk with rfl | rfl <;> omega

/-- At its start a mixture of channels is the first one. -/
theorem blendChannel_zero (a b : UInt8) (ht : W.Stands t 0) : blendChannel a b t = a := by
  have hmix := stands_blendChannel W a b (.inl rfl) ht
  rw [Int.mul_zero, Int.add_zero] at hmix
  exact channel_of_stands W hmix

/-- At its end it is the second one. -/
theorem blendChannel_one (a b : UInt8) (ht : W.Stands t 1) : blendChannel a b t = b := by
  have hmix := stands_blendChannel W a b (.inr rfl) ht
  rw [Int.mul_one, Int.add_comm, Int.sub_add_cancel] at hmix
  exact channel_of_stands W hmix

/-- So it is with colours at the start. -/
theorem blend_zero (c d : Rgb) (ht : W.Stands t 0) : c.blend d t = c := by
  simp only [blend, W.clamp_of_mem ht (by omega) (by omega), blendChannel_zero W _ _ ht]

/-- So it is with colours at the end. -/
theorem blend_one (c d : Rgb) (ht : W.Stands t 1) : c.blend d t = d := by
  simp only [blend, W.clamp_of_mem ht (by omega) (by omega), blendChannel_one W _ _ ht]

end Rgb

/-! ### Palettes -/

namespace Palette

variable (p : Palette)

/-- An index within the palette is not wrapped around. -/
theorem getElem?_colors {i : Nat} (h : i < p.size) : p.colors[i]? = some (p.get i) := by
  rw [get]
  simp only [Nat.mod_eq_of_lt h]
  exact List.getElem?_eq_getElem h

/-- The first stop has the index `0`. -/
theorem head?_colors : p.colors.head? = some (p.get 0) := by
  rw [List.head?_eq_getElem?, p.getElem?_colors p.size_pos]

/-- The last stop has the last index. -/
theorem getLast?_colors : p.colors.getLast? = some (p.get (p.size - 1)) := by
  rw [List.getLast?_eq_getElem?]
  exact p.getElem?_colors (Nat.sub_lt p.size_pos Nat.one_pos)

variable [Arith α] (W : ExactWholes α) {t : α}

/-- A place that is a whole number of stretches from the start lies at an end of a stretch. -/
theorem gradient_of_stretches {n : Nat} (hmany : p.size ≠ 1) (hsize : p.size ≤ W.bound)
    (hn : n < p.size)
    (halong : W.Stands (Arith.clamp 0 1 t * Arith.ofNat (p.size - 1)) n) :
    ∃ rest : α, W.Stands rest (n - min n (p.size - 2) : Nat) ∧
      p.gradient t =
        (p.get (min n (p.size - 2))).blend (p.get (min n (p.size - 2) + 1)) rest := by
  have hindex : Arith.truncateNat (Arith.floor (Arith.clamp 0 1 t * Arith.ofNat (p.size - 1))) = n :=
    W.truncateNat_eq (W.floor halong)
  refine ⟨_, ?_, by simp only [gradient, if_neg hmany, hindex]; rfl⟩
  have hmin : min n (p.size - 2) ≤ n := Nat.min_le_left _ _
  rw [Int.ofNat_sub hmin]
  exact W.sub halong (W.ofNat (by omega)) (by omega)

/-- The first stop is the colour at the start. -/
theorem gradient_zero (hsize : p.size ≤ W.bound) (ht : W.Stands t 0) : p.gradient t = p.get 0 := by
  by_cases hone : p.size = 1
  · rw [gradient, if_pos hone]
  · have hcount : W.Stands (Arith.ofNat (p.size - 1) : α) (p.size - 1 : Nat) := W.ofNat (by omega)
    have halong : W.Stands (Arith.clamp 0 1 t * Arith.ofNat (p.size - 1)) (0 : Nat) := by
      have hmul := W.mul ht hcount (by omega)
      rwa [Int.zero_mul, ← W.clamp_of_mem ht (by omega) (by omega)] at hmul
    -- The first stretch has not been entered.
    obtain ⟨rest, hrest, hgradient⟩ := p.gradient_of_stretches W hone hsize p.size_pos halong
    rw [Nat.zero_min] at hrest hgradient
    rw [hgradient]
    exact Rgb.blend_zero W _ _ hrest

/-- The last stop is the colour at the end. -/
theorem gradient_one (hsize : p.size ≤ W.bound) (ht : W.Stands t 1) :
    p.gradient t = p.get (p.size - 1) := by
  by_cases hone : p.size = 1
  · rw [gradient, if_pos hone, hone]
  · have hpos := p.size_pos
    have hcount : W.Stands (Arith.ofNat (p.size - 1) : α) (p.size - 1 : Nat) := W.ofNat (by omega)
    have halong : W.Stands (Arith.clamp 0 1 t * Arith.ofNat (p.size - 1)) (p.size - 1 : Nat) := by
      have hmul := W.mul ht hcount (by omega)
      rwa [Int.one_mul, ← W.clamp_of_mem ht (by omega) (by omega)] at hmul
    -- The last stretch begins at the stop before the last, and is gone through to its end.
    obtain ⟨rest, hrest, hgradient⟩ :=
      p.gradient_of_stretches W hone hsize (Nat.sub_lt hpos Nat.one_pos) halong
    have hindex : min (p.size - 1) (p.size - 2) = p.size - 2 := by omega
    have hnext : p.size - 2 + 1 = p.size - 1 := by omega
    have hwhole : p.size - 1 - (p.size - 2) = 1 := by omega
    rw [hindex, hnext] at hgradient
    rw [hindex, hwhole] at hrest
    rw [hgradient]
    exact Rgb.blend_one W _ _ hrest

end Palette

/-! ### Strokes in a row -/

namespace ColorSource

variable [Scalar α] (W : ExactWholes α) {total : Nat}

/-- The first of several strokes is at the start. -/
theorem progress_first (hmany : 2 ≤ total) (hbound : total ≤ W.bound) :
    W.Stands (progress 0 total : α) 0 := by
  have hlast : max (total - 1) 1 = total - 1 := by omega
  have hcount : W.Stands (Arith.ofNat (total - 1) : α) (total - 1 : Nat) := W.ofNat (by omega)
  rw [progress, hlast]
  exact W.div (by rw [Int.zero_mul]; exact W.zero) hcount (by omega)

/-- The last one is at the end. -/
theorem progress_last (hmany : 2 ≤ total) (hbound : total ≤ W.bound) :
    W.Stands (progress (total - 1) total : α) 1 := by
  have hlast : max (total - 1) 1 = total - 1 := by omega
  have hcount : W.Stands (Arith.ofNat (total - 1) : α) (total - 1 : Nat) := W.ofNat (by omega)
  rw [progress, hlast]
  exact W.div (by rw [Int.one_mul]; exact hcount) hcount (by omega)

end ColorSource

end TurtleCurves
