import Mathlib.Logic.Basic
import TurtleCurves.Raster.Image

namespace TurtleCurves

/-!
# Painted pixels

What painting parts of rows does to the pixels of an image.

* `Span.Holds` — a pixel belongs to a part of a row;
* `Span.Inside` — a part of a row lies inside an image of a given size;
* `Image.pixel?_fill` — an image that is painted over;
* `Image.pixel?_fillSpan`, `Image.pixel?_fillSpans` — the pixels of the painted parts take the
  colour, and every other pixel is as before.
-/

/-! ### Parts of rows -/

namespace Span

/-- The pixel in column `x` of row `y` belongs to the part. -/
def Holds (s : Span) (x y : Nat) : Prop := s.row = y ∧ s.first ≤ x ∧ (x : Int) ≤ s.last

instance (s : Span) (x y : Nat) : Decidable (s.Holds x y) :=
  inferInstanceAs (Decidable (_ ∧ _ ∧ _))

/-- The part lies in an image of the given size. -/
structure Inside (s : Span) (width height : Nat) : Prop where
  row_nonneg : 0 ≤ s.row
  row_lt : s.row < height
  first_nonneg : 0 ≤ s.first
  last_lt : s.last < width

/-- A pixel of such a part has a column of the image. -/
theorem Holds.column_lt {s : Span} {x y width height : Nat} (h : s.Holds x y)
    (hs : s.Inside width height) : x < width := by
  have := h.2.2
  have := hs.last_lt
  omega

/-- It has a row of the image. -/
theorem Holds.row_lt {s : Span} {x y width height : Nat} (h : s.Holds x y)
    (hs : s.Inside width height) : y < height := by
  have := h.1
  have := hs.row_lt
  omega

/-- **Pixels by their index.** Rows follow each other, so the pixels of a part are the ones with
an index in one interval. -/
theorem holds_iff_index {s : Span} {x y width height : Nat} (hs : s.Inside width height)
    (hx : x < width) :
    s.Holds x y ↔
      s.row.toNat * width + s.first.toNat ≤ y * width + x ∧
        y * width + x < s.row.toNat * width + s.first.toNat + s.count := by
  obtain ⟨row, first, last⟩ := s
  obtain ⟨hrow, -, hfirst, hlast⟩ := hs
  obtain ⟨row, rfl⟩ := Int.eq_ofNat_of_zero_le hrow
  obtain ⟨first, rfl⟩ := Int.eq_ofNat_of_zero_le hfirst
  simp only [Holds, count, Int.toNat_natCast] at hlast ⊢
  constructor
  · rintro ⟨hy, hle, hge⟩
    obtain rfl : row = y := by omega
    omega
  · rintro ⟨hle, hlt⟩
    -- The index lies in row `y` and in row `row`, and each row has `width` of them.
    have hstop : row * width + first + (last + 1 - (first : Int)).toNat ≤ row * width + width := by
      omega
    have hbelow : y * width < (row + 1) * width := by
      rw [Nat.succ_mul]
      omega
    have habove : row * width < (y + 1) * width := by
      rw [Nat.succ_mul]
      omega
    have hyrow : y < row + 1 := Nat.lt_of_mul_lt_mul_right hbelow
    have hrowy : row < y + 1 := Nat.lt_of_mul_lt_mul_right habove
    obtain rfl : row = y := by omega
    omega

end Span

/-! ### Pixels after painting -/

namespace Image

variable {c : Rgb} {img : Image}

/-- A pixel inside the image has an index. -/
theorem index_lt_size {x y : Nat} (hx : x < img.width) (hy : y < img.height) :
    y * img.width + x < img.pixels.size := by
  rw [img.size_eq]
  calc y * img.width + x < (y + 1) * img.width := by rw [Nat.succ_mul]; omega
    _ ≤ img.height * img.width := Nat.mul_le_mul_right _ hy
    _ = img.width * img.height := Nat.mul_comm ..

/-- **An image is painted over.** Every pixel inside it takes the colour. -/
theorem pixel?_fill (c : Rgb) (img : Image) (x y : Nat) :
    (img.fill c).pixel? x y = if x < img.width ∧ y < img.height then some (some c) else none := by
  by_cases hxy : x < img.width ∧ y < img.height
  · have hindex := index_lt_size hxy.1 hxy.2
    rw [img.size_eq] at hindex
    have hthere : (img.fill c).pixel? x y =
        (Array.replicate (img.width * img.height) (some c))[y * img.width + x]? := if_pos hxy
    rw [hthere, Array.getElem?_replicate, if_pos hindex, if_pos hxy]
  · rw [if_neg hxy]
    exact if_neg hxy

/-- Pixels that follow each other in the array, set to one colour. -/
theorem getElem?_fillFrom (c : Option Rgb) (pixels : Array (Option Rgb)) (i n j : Nat) :
    (fillFrom c pixels i n)[j]? =
      if i ≤ j ∧ j < i + n ∧ j < pixels.size then some c else pixels[j]? := by
  induction n generalizing pixels i with
  | zero =>
    rw [if_neg (by omega)]
    rfl
  | succ n ih =>
    rw [fillFrom, ih, Array.size_setIfInBounds, Array.getElem?_setIfInBounds]
    -- The pixel is the first of them, or it is reached by the others.
    by_cases hij : i = j
    · subst hij
      by_cases hi : i < pixels.size
      · rw [if_neg (by omega), if_pos rfl, if_pos hi, if_pos (by omega)]
      · rw [if_neg (by omega), if_pos rfl, if_neg hi, if_neg (by omega),
          Array.getElem?_eq_none (by omega)]
    · rw [if_neg hij]
      exact if_congr (by omega) rfl rfl

/-- **A part of a row is painted.** Its pixels take the colour, and no other one changes. -/
theorem pixel?_fillSpan {s : Span} (hs : s.Inside img.width img.height) (x y : Nat) :
    (fillSpan c img s).pixel? x y =
      if s.Holds x y then some (some c) else img.pixel? x y := by
  by_cases hxy : x < img.width ∧ y < img.height
  · have hsize : y * img.width + x < img.pixels.size := index_lt_size hxy.1 hxy.2
    have hindex := Span.holds_iff_index (y := y) hs hxy.1
    rw [pixel?, width_fillSpan, height_fillSpan, if_pos hxy, pixel?, if_pos hxy, fillSpan,
      getElem?_fillFrom]
    refine if_congr ?_ rfl rfl
    rw [hindex]
    exact ⟨fun h => ⟨h.1, h.2.1⟩, fun h => ⟨h.1, h.2, hsize⟩⟩
  · rw [if_neg fun h => hxy ⟨h.column_lt hs, h.row_lt hs⟩, pixel?, width_fillSpan,
      height_fillSpan, if_neg hxy, pixel?, if_neg hxy]

@[simp] theorem width_fillSpans (c : Rgb) (img : Image) (spans : List Span) :
    (img.fillSpans c spans).width = img.width := by
  induction spans generalizing img with
  | nil => rfl
  | cons s spans ih => exact ih (fillSpan c img s)

@[simp] theorem height_fillSpans (c : Rgb) (img : Image) (spans : List Span) :
    (img.fillSpans c spans).height = img.height := by
  induction spans generalizing img with
  | nil => rfl
  | cons s spans ih => exact ih (fillSpan c img s)

/-- **Parts of rows are painted.** By induction on the parts: a pixel that a later part paints
too has the colour already. -/
theorem pixel?_fillSpans {spans : List Span}
    (hs : ∀ s ∈ spans, s.Inside img.width img.height) (x y : Nat) :
    (img.fillSpans c spans).pixel? x y =
      if ∃ s ∈ spans, s.Holds x y then some (some c) else img.pixel? x y := by
  induction spans generalizing img with
  | nil => simp [fillSpans]
  | cons s spans ih =>
    obtain ⟨hfirst, hrest⟩ := List.forall_mem_cons.mp hs
    have hlater : ((fillSpan c img s).fillSpans c spans).pixel? x y =
        if ∃ s ∈ spans, s.Holds x y then some (some c) else (fillSpan c img s).pixel? x y :=
      ih hrest
    rw [fillSpans, List.foldl_cons, ← fillSpans, hlater, pixel?_fillSpan hfirst]
    by_cases hhere : s.Holds x y <;> simp [hhere]

end Image

end TurtleCurves
