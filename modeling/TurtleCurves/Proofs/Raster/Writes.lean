import Mathlib.Data.Finset.Card
import Mathlib.Data.Finset.Prod
import Mathlib.Order.Interval.Finset.Basic
import Mathlib.Data.Int.Interval
import TurtleCurves.Proofs.Binary64.Integers
import TurtleCurves.Proofs.Raster.Cropping

namespace TurtleCurves

/-!
# Pixel by pixel

A thick line is painted row by row and column by column, and a write outside the image is an error.

* `Image.put?` — one write, which fails outside the image;
* `Span.pixels`, `Capsule.writes` — the pixels in the order in which they are written;
* `Image.foldlM_put?_flatMap` — parts of rows inside the image are written without an error;
* `Capsule.nodup_writes` — no pixel is written twice;
* `Capsule.writes_inside` — with doubles there is no error either, whatever the line is.
-/

/-! ### Writes -/

namespace Image

/-- One pixel in one colour; there is none outside the image. -/
def put? (c : Rgb) (img : Image) (p : Int × Int) : Option Image :=
  if (0 ≤ p.1 ∧ p.1 < img.width) ∧ 0 ≤ p.2 ∧ p.2 < img.height then
    some { img with
      pixels := img.pixels.setIfInBounds (p.2.toNat * img.width + p.1.toNat) (some c)
      size_eq := by rw [Array.size_setIfInBounds, img.size_eq] }
  else none

end Image

/-- The pixels of a part of a row, from left to right. -/
def Span.pixels (s : Span) : List (Int × Int) :=
  (Capsule.range s.first s.last).map fun column => (column, s.row)

/-- The pixels that are written for a thick line, in order. -/
def Capsule.writes {α : Type} [Scalar α] (k : Capsule α) (width height : Nat) : List (Int × Int) :=
  (k.spans width height).flatMap Span.pixels

/-! ### Ranges -/

namespace Capsule

/-- A range from a number to a smaller one is empty. -/
theorem range_of_lt {lo hi : Int} (h : hi < lo) : range lo hi = [] := by
  have hcount : (hi + 1 - lo).toNat = 0 := by omega
  rw [range, hcount]
  rfl

/-- Any other begins with its first number. -/
theorem range_of_le {lo hi : Int} (h : lo ≤ hi) : range lo hi = lo :: range (lo + 1) hi := by
  have hcount : (hi + 1 - lo).toNat = (hi + 1 - (lo + 1)).toNat + 1 := by omega
  rw [range, range, hcount, List.range_succ_eq_map, List.map_cons, List.map_map]
  refine congrArg₂ List.cons (Int.add_zero lo) (List.map_congr_left fun i _ => ?_)
  show lo + ((i + 1 : Nat) : Int) = lo + 1 + (i : Int)
  omega

/-- It has as many numbers as there are from its first to its last. -/
theorem length_range (lo hi : Int) : (range lo hi).length = (hi + 1 - lo).toNat := by
  rw [range, List.length_map, List.length_range]

/-- They are increasing. -/
theorem pairwise_range (lo hi : Int) : (range lo hi).Pairwise (· < ·) := by
  rw [range, List.pairwise_map]
  refine List.pairwise_lt_range.imp fun {i j} h => ?_
  show lo + (i : Int) < lo + (j : Int)
  omega

/-- A range inside `0 … n - 1` is not longer than that. -/
theorem length_range_le {lo hi : Int} {n : Nat} (hlo : 0 ≤ lo) (hhi : hi < n) :
    (range lo hi).length ≤ n := by
  rw [length_range]
  omega

end Capsule

/-! ### Parts of rows -/

namespace Span

variable {row first last : Int}

/-- A part of a row that ends before it begins has no pixels. -/
theorem pixels_of_lt (h : last < first) : pixels ⟨row, first, last⟩ = [] := by
  rw [pixels, Capsule.range_of_lt h]
  rfl

/-- Any other begins with its first pixel. -/
theorem pixels_of_le (h : first ≤ last) :
    pixels ⟨row, first, last⟩ = (first, row) :: pixels ⟨row, first + 1, last⟩ := by
  rw [pixels, Capsule.range_of_le h]
  rfl

/-- Its pixels are those of its row between its ends. -/
theorem mem_pixels {s : Span} {p : Int × Int} :
    p ∈ s.pixels ↔ (s.first ≤ p.1 ∧ p.1 ≤ s.last) ∧ s.row = p.2 := by
  rw [pixels, List.mem_map]
  constructor
  · rintro ⟨column, hcolumn, rfl⟩
    exact ⟨Capsule.mem_range.mp hcolumn, rfl⟩
  · rintro ⟨hcolumn, hrow⟩
    exact ⟨p.1, Capsule.mem_range.mpr hcolumn, Prod.ext rfl hrow⟩

end Span

namespace Image

variable {c : Rgb}

/-- A part without pixels changes nothing. -/
theorem fillSpan_of_lt {row first last : Int} (h : last < first) (img : Image) :
    fillSpan c img ⟨row, first, last⟩ = img := by
  have hcount : (last + 1 - first).toNat = 0 := by omega
  obtain ⟨width, height, pixels, size_eq⟩ := img
  simp only [fillSpan, Span.count, hcount, fillFrom]

/-- The first pixel of a part of a row is written, and the others are left. -/
theorem exists_put? {img : Image} {row first last : Int} (hle : first ≤ last)
    (hs : Span.Inside ⟨row, first, last⟩ img.width img.height) :
    ∃ next, put? c img (first, row) = some next ∧
      (next.width = img.width ∧ next.height = img.height) ∧
      fillSpan c next ⟨row, first + 1, last⟩ = fillSpan c img ⟨row, first, last⟩ := by
  have hfirst : 0 ≤ first := hs.first_nonneg
  have hcount : (last + 1 - first).toNat = (last + 1 - (first + 1)).toNat + 1 := by omega
  have hindex : row.toNat * img.width + (first + 1).toNat =
      row.toNat * img.width + first.toNat + 1 := by omega
  refine ⟨_, if_pos ⟨⟨hfirst, Int.lt_of_le_of_lt hle hs.last_lt⟩, hs.row_nonneg, hs.row_lt⟩,
    ⟨rfl, rfl⟩, ?_⟩
  simp only [fillSpan, Span.count, hcount, fillFrom, hindex]

/-- A part of a row is written from left to right. -/
theorem foldlM_put?_pixels {img : Image} {s : Span} (hs : s.Inside img.width img.height) :
    s.pixels.foldlM (put? c) img = some (fillSpan c img s) := by
  obtain ⟨row, first, last⟩ := s
  -- By induction on the number of columns; what has been written is part of the image.
  generalize hn : (last + 1 - first).toNat = n
  induction n generalizing first img with
  | zero =>
    rw [Span.pixels_of_lt (by omega), fillSpan_of_lt (by omega)]
    rfl
  | succ n ih =>
    have hle : first ≤ last := by omega
    obtain ⟨next, hput, ⟨hwidth, hheight⟩, hrest⟩ := exists_put? (c := c) hle hs
    have hs' : Span.Inside ⟨row, first + 1, last⟩ next.width next.height := by
      rw [hwidth, hheight]
      exact ⟨hs.row_nonneg, hs.row_lt, Int.le_add_one hs.first_nonneg, hs.last_lt⟩
    rw [Span.pixels_of_le hle, List.foldlM_cons, hput, ← hrest]
    exact ih _ hs' (by omega)

/-- **No error.** Parts of rows that are inside the image are written one after the other. -/
theorem foldlM_put?_flatMap {img : Image} {spans : List Span}
    (hs : ∀ s ∈ spans, s.Inside img.width img.height) :
    (spans.flatMap Span.pixels).foldlM (put? c) img = some (img.fillSpans c spans) := by
  induction spans generalizing img with
  | nil => rfl
  | cons s spans ih =>
    obtain ⟨hfirst, hrest⟩ := List.forall_mem_cons.mp hs
    rw [List.flatMap_cons, List.foldlM_append, foldlM_put?_pixels hfirst]
    exact ih hrest

end Image

/-! ### Thick lines -/

namespace Capsule

variable {α : Type} [Scalar α] {k : Capsule α} {width height : Nat}

/-- The part of a row is in that row. -/
theorem row_of_mem_span? {row : Int} {s : Span} (h : s ∈ k.span? width row) : s.row = row := by
  obtain ⟨e, -, rfl⟩ := mem_span?.mp h
  rfl

/-- The painted parts of rows follow each other from the top. -/
theorem pairwise_spans (k : Capsule α) (width height : Nat) :
    (k.spans width height).Pairwise fun s t => s.row < t.row := by
  refine (pairwise_range _ _).filterMap _ fun row row' hrow s hs t ht => ?_
  rw [row_of_mem_span? hs, row_of_mem_span? ht]
  exact hrow

/-- No pixel is written twice. -/
theorem nodup_writes (k : Capsule α) (width height : Nat) : (k.writes width height).Nodup := by
  -- One part of a row is a range of columns, and two parts are in different rows.
  refine List.nodup_flatMap.mpr ⟨fun s _ => ?_, (pairwise_spans k width height).imp fun hrow => ?_⟩
  -- The columns of a range are increasing, hence different.
  · have hcolumns : (range s.first s.last).Nodup :=
      (pairwise_range s.first s.last).imp fun hlt => Int.ne_of_lt hlt
    exact hcolumns.map fun column column' h => congrArg Prod.fst h
  · intro p hp hp'
    rw [(Span.mem_pixels.mp hp).2, (Span.mem_pixels.mp hp').2] at hrow
    exact Int.lt_irrefl _ hrow

/-- What is written is in the image. -/
theorem inside_of_mem_writes (hwidth : Arith.Crops α width) (hheight : Arith.Crops α height)
    {p : Int × Int} (hp : p ∈ k.writes width height) :
    (0 ≤ p.1 ∧ p.1 < width) ∧ 0 ≤ p.2 ∧ p.2 < height := by
  obtain ⟨s, hs, hpixels⟩ := List.mem_flatMap.mp hp
  obtain ⟨⟨hfirst, hlast⟩, hrow⟩ := Span.mem_pixels.mp hpixels
  obtain ⟨hrow₀, hrow₁, hfirst₀, hlast₁⟩ := inside_of_mem_spans hwidth hheight hs
  exact ⟨⟨hfirst₀.trans hfirst, hlast.trans_lt hlast₁⟩, hrow ▸ hrow₀, hrow ▸ hrow₁⟩

/-- The pixels of an image are no fewer than the writes. -/
theorem length_writes_le (hwidth : Arith.Crops α width) (hheight : Arith.Crops α height) :
    (k.writes width height).length ≤ width * height := by
  have hgrid : (k.writes width height).toFinset ⊆
      Finset.Ico (0 : Int) width ×ˢ Finset.Ico (0 : Int) height := by
    intro p hp
    rw [Finset.mem_product, Finset.mem_Ico, Finset.mem_Ico]
    exact inside_of_mem_writes hwidth hheight (List.mem_toFinset.mp hp)
  -- No pixel is written twice, so the writes are as many as their pixels.
  calc (k.writes width height).length
      = (k.writes width height).toFinset.card :=
        (List.toFinset_card_of_nodup (nodup_writes k width height)).symm
    _ ≤ (Finset.Ico (0 : Int) width ×ˢ Finset.Ico (0 : Int) height).card :=
        Finset.card_le_card hgrid
    _ = width * height := by
        rw [Finset.card_product, Int.card_Ico, Int.card_Ico, Int.sub_zero, Int.sub_zero,
          Int.toNat_natCast, Int.toNat_natCast]

end Capsule

/-! ### Doubles -/

/-- Doubles are cut off at every number of places that they can count. -/
theorem Binary64.crops {n : Nat} (hn : n < 2 ^ 53) : Arith.Crops Float n where
  nonneg := truncate_maximum_zero
  lt x := truncate_minimum_last x hn

/-- **Every write is inside the image,** whatever numbers the line is made of, infinities and no
numbers at all among them.  No write fails, and their outcome is the painted image; there are no
more of them than pixels.  The rows that are gone through are rows of the image, and the columns of
whatever part of a row the shape has are columns of the image.  Sizes of images have 32 binary
digits, and the doubles next to them are exact up to 53. -/
theorem Capsule.writes_inside (k : Capsule Float) (c : Rgb) (img : Image)
    (hwidth : img.width < 2 ^ 53) (hheight : img.height < 2 ^ 53) :
    (k.writes img.width img.height).foldlM (Image.put? c) img =
        some (img.fillSpans c (k.spans img.width img.height)) ∧
      (∀ p ∈ k.writes img.width img.height,
        (0 ≤ p.1 ∧ p.1 < img.width) ∧ 0 ≤ p.2 ∧ p.2 < img.height) ∧
      (k.writes img.width img.height).length ≤ img.width * img.height ∧
      ((0 ≤ (k.rows img.height).1 ∧ (k.rows img.height).2 < img.height) ∧
        (range (k.rows img.height).1 (k.rows img.height).2).length ≤ img.height) ∧
      ∀ e : Extent Float,
        (0 ≤ (e.columns img.width).1 ∧ (e.columns img.width).2 < img.width) ∧
          (range (e.columns img.width).1 (e.columns img.width).2).length ≤ img.width := by
  -- What is used of the numbers is that cropping one to a size gives a place within it.
  have hcolumns := Binary64.crops hwidth
  have hrows := Binary64.crops hheight
  have hrange := k.rows_inside hrows
  refine ⟨?_, fun p hp => inside_of_mem_writes hcolumns hrows hp, length_writes_le hcolumns hrows,
    ⟨hrange, length_range_le hrange.1 hrange.2⟩, fun e => ?_⟩
  · exact Image.foldlM_put?_flatMap fun s hs => inside_of_mem_spans hcolumns hrows hs
  · have hrange' := e.columns_inside hcolumns
    exact ⟨hrange', length_range_le hrange'.1 hrange'.2⟩

/-- An infinitely thick line from nowhere to infinity: on six pixels there are six writes at most,
and on an image without columns there is none. -/
theorem Capsule.writes_inside_of_infinite :
    let k : Capsule Float := ⟨⟨0 / 0, 1 / 0⟩, ⟨-1 / 0, 5⟩, 1 / 0⟩
    (k.writes 3 2).length ≤ 6 ∧ k.writes 0 7 = [] := by
  intro k
  obtain ⟨-, -, hsix, -⟩ :=
    k.writes_inside Rgb.black (Image.clear 3 2) (by decide) (by decide)
  obtain ⟨-, -, hnone, -⟩ :=
    k.writes_inside Rgb.black (Image.clear 0 7) (by decide) (by decide)
  exact ⟨hsix, List.eq_nil_of_length_eq_zero (Nat.le_zero.mp hnone)⟩

end TurtleCurves
