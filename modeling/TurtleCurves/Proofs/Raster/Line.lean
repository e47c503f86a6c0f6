import TurtleCurves.Proofs.Raster.Coverage
import TurtleCurves.Proofs.Raster.Cropping
import TurtleCurves.Raster.Surface

namespace TurtleCurves

/-!
# Exact lines

A line of a drawing sets the pixels whose middles are near it, and no others.

* `Capsule.mem_rows`, `Capsule.exists_mem_spans` — no row and no column is lost or won by cutting
  the shape off at the edges of the image;
* `Raster.not_mem_of_misses` — a line that is passed over is near no pixel;
* `Raster.drawLine_exact` — the pixels after a line.
-/

/-! ### Rows and columns of the image -/

/-- Exact numbers can be cut off at any number of places. -/
theorem exact_crops (n : ℕ) : Arith.Crops ℝ n where
  nonneg x := by
    have hnonneg : (0 : ℝ) ≤ max x (0 : ℝ) := le_max_right ..
    rw [exact_zero]
    exact (Int.floor_nonneg.mpr hnonneg).trans_eq (if_pos hnonneg).symm
  lt x := by
    have hle : min x ((n : ℝ) - 1) ≤ ((n - 1 : ℤ) : ℝ) := by
      push_cast
      exact min_le_right ..
    have hceil : ⌈min x ((n : ℝ) - 1)⌉ ≤ (n : ℤ) - 1 := Int.ceil_le.mpr hle
    have hfloor : ⌊min x ((n : ℝ) - 1)⌋ ≤ ⌈min x ((n : ℝ) - 1)⌉ := Int.floor_le_ceil _
    rw [exact_count, exact_one]
    -- Rounding towards zero takes a negative number up, so the ceiling has to stay below too.
    show (if _ then ⌊min x ((n : ℝ) - 1)⌋ else ⌈min x ((n : ℝ) - 1)⌉) < (n : ℤ)
    split <;> omega

namespace Capsule

variable {k : Capsule ℝ}

/-- The rows that are looked at, cut off at the borders of the image. -/
theorem rows_eq (k : Capsule ℝ) (height : ℕ) :
    k.rows height =
      (max ⌊min k.start.y k.stop.y - k.radius⌋ 0,
        min ⌈max k.start.y k.stop.y + k.radius⌉ ((height : ℤ) - 1)) := by
  simp only [rows, exact_ceil, exact_floor, exact_count, exact_zero, exact_one]
  rw [truncate_max_zero, truncate_min_last]

/-- **No row is lost.** A row of the image whose middle line meets the shape is one of the rows
that are looked at. -/
theorem mem_rows (hradius : 0 ≤ k.radius) {height y : ℕ} (hy : y < height) {x : ℝ}
    (h : k.Covers ⟨x, y + 1 / 2⟩) :
    (k.rows height).1 ≤ y ∧ (y : ℤ) ≤ (k.rows height).2 := by
  obtain ⟨-, hlo, hhi⟩ := Point.Near.mem_box h hradius
  -- The rows are those of the box rounded outwards, and a covered pixel's centre is in the box.
  have hfirst : ⌊min k.start.y k.stop.y - k.radius⌋ ≤ (y : ℤ) := by
    rw [← Int.lt_add_one_iff, Int.floor_lt]
    push_cast
    linarith
  have hlast : (y : ℤ) ≤ ⌈max k.start.y k.stop.y + k.radius⌉ := by
    rw [← Int.cast_le (R := ℝ)]
    calc ((y : ℤ) : ℝ) ≤ max k.start.y k.stop.y + k.radius := by
          push_cast
          linarith
      _ ≤ ⌈max k.start.y k.stop.y + k.radius⌉ := Int.le_ceil _
  rw [rows_eq]
  exact ⟨max_le hfirst (Int.natCast_nonneg y), le_min hlast (by omega)⟩

/-- The part of a row is cut out at the middle of the row. -/
theorem exact_mem_span? {width : ℕ} {row : ℤ} {s : Span} :
    s ∈ k.span? width row ↔
      ∃ e ∈ k.extent? (row.toNat + 1 / 2), ⟨row, (e.columns width).1, (e.columns width).2⟩ = s := by
  rw [mem_span?, exact_count, exact_half]

/-- **The spans are exact.** They hold the pixels of the image whose middles are in the shape. -/
theorem exists_mem_spans (hradius : 0 ≤ k.radius) (h : Resolved k.start k.stop)
    (width height x y : ℕ) :
    (∃ s ∈ k.spans width height, s.Holds x y) ↔
      x < width ∧ y < height ∧ k.Covers ⟨x + 1 / 2, y + 1 / 2⟩ := by
  have hextent : k.Covers ⟨x + 1 / 2, y + 1 / 2⟩ ↔
      (x + 1 / 2 : ℝ) ∈ Extent.pointsOf (k.extent? (y + 1 / 2)) := by
    rw [pointsOf_extent? hradius h]
    rfl
  constructor
  · rintro ⟨s, hs, hholds⟩
    have hinside := inside_of_mem_spans (exact_crops width) (exact_crops height) hs
    refine ⟨hholds.column_lt hinside, hholds.row_lt hinside, ?_⟩
    obtain ⟨row, -, hrow⟩ := mem_spans.mp hs
    obtain ⟨e, he, rfl⟩ := exact_mem_span?.mp hrow
    obtain ⟨rfl, hcolumns⟩ := hholds
    rw [Int.toNat_natCast] at he
    rw [hextent, he]
    exact ((e.mem_columns width x).mp hcolumns).2
  -- The row is looked at because the shape meets its middle line, and the columns are those of its
  -- extent there.
  · rintro ⟨hx, hy, hcovers⟩
    cases he : k.extent? (y + 1 / 2) with
    | none =>
      rw [hextent, he] at hcovers
      exact hcovers.elim
    | some e =>
      rw [hextent, he] at hcovers
      refine ⟨⟨y, (e.columns width).1, (e.columns width).2⟩, ?_, rfl,
        (e.mem_columns width x).mpr ⟨hx, hcovers⟩⟩
      refine mem_spans.mpr ⟨y, mem_rows hradius hy (hextent.mpr ?_),
        exact_mem_span?.mpr ⟨e, ?_, rfl⟩⟩
      · rwa [he]
      · rwa [Int.toNat_natCast]

end Capsule

/-! ### Lines -/

namespace Raster

/-- Half the width of a stroke, in pixels, and at least half a pixel. -/
theorem radius_eq (r : Raster ℝ) :
    r.radius = max (1 / 2) (r.strokeWidth * r.transform.current.scaleFactor / 2) := by
  rw [radius, exact_ofNat, exact_half, max_comm]

theorem radius_nonneg (r : Raster ℝ) : 0 ≤ r.radius := by
  rw [radius_eq]
  exact le_max_of_le_left (by norm_num)

/-- **Passing over is safe.** The middle of a pixel of the image is not near two coordinates that
miss the image. -/
theorem not_mem_of_misses {a b radius : ℝ} {n x : ℕ} (h : misses a b (Arith.ofNat n) radius)
    (hx : x < n) : (x + 1 / 2 : ℝ) ∉ Set.Icc (min a b - radius) (max a b + radius) := by
  rintro ⟨hlo, hhi⟩
  have hnonneg : (0 : ℝ) ≤ x := Nat.cast_nonneg x
  have hlast : (x : ℝ) + 1 ≤ n := by exact_mod_cast hx
  rw [misses, Bool.or_eq_true, decide_eq_true_eq, decide_eq_true_eq, exact_zero, exact_count] at h
  rcases h with h | h <;> linarith

/-- The parts of rows of a line are inside the image. -/
theorem inside_of_mem_lineSpans {r : Raster ℝ} {p q : Point ℝ} {s : Span}
    (hs : s ∈ r.lineSpans p q) : s.Inside r.image.width r.image.height := by
  rw [lineSpans] at hs
  split at hs
  · nomatch hs
  · exact Capsule.inside_of_mem_spans (exact_crops _) (exact_crops _) hs

/-- The pixels of a line, passed over or not, are those whose middles are near it. -/
theorem exists_mem_lineSpans (r : Raster ℝ) {p q : Point ℝ}
    (h : Resolved (r.transform.apply p) (r.transform.apply q)) (x y : ℕ) :
    (∃ s ∈ r.lineSpans p q, s.Holds x y) ↔
      x < r.image.width ∧ y < r.image.height ∧
        (r.capsule p q).Covers ⟨x + 1 / 2, y + 1 / 2⟩ := by
  rw [lineSpans]
  split
  -- A line that is passed over has no parts, and is near no pixel.
  · next hmiss =>
    constructor
    · rintro ⟨s, hs, -⟩
      nomatch hs
    · rintro ⟨hx, hy, hcovers⟩
      obtain ⟨hcolumn, hrow⟩ := hcovers.mem_box r.radius_nonneg
      rcases Bool.or_eq_true _ _ ▸ hmiss with hmiss | hmiss
      · exact (not_mem_of_misses hmiss hx hcolumn).elim
      · exact (not_mem_of_misses hmiss hy hrow).elim
  · exact Capsule.exists_mem_spans (k := r.capsule p q) r.radius_nonneg h _ _ x y

open scoped Classical in
/-- **Lines are exact.** A line between ends that are told apart, or that coincide, sets to the
colour of the stroke the pixels of the image whose middles are at most half the width of the
stroke away from the mapped segment, and at least those half a pixel away; every other pixel is
as before. -/
theorem drawLine_exact (r : Raster ℝ) (p q : Point ℝ)
    (h : Resolved (r.transform.apply p) (r.transform.apply q)) :
    (r.drawLine p q).image.width = r.image.width ∧
      (r.drawLine p q).image.height = r.image.height ∧
      ∀ x y : ℕ, (r.drawLine p q).image.pixel? x y =
        if x < r.image.width ∧ y < r.image.height ∧
            Point.Near ⟨x + 1 / 2, y + 1 / 2⟩ (r.transform.apply p) (r.transform.apply q)
              (max (1 / 2) (r.strokeWidth * r.transform.current.scaleFactor / 2))
        then some (some r.stroke) else r.image.pixel? x y := by
  refine ⟨Image.width_fillSpans .., Image.height_fillSpans .., fun x y => ?_⟩
  have hinside : ∀ s ∈ r.lineSpans p q, s.Inside r.image.width r.image.height :=
    fun s hs => inside_of_mem_lineSpans hs
  rw [← radius_eq]
  -- The spans write what they hold, and together they hold the pixels near the segment.
  calc (r.drawLine p q).image.pixel? x y
      = if ∃ s ∈ r.lineSpans p q, s.Holds x y then some (some r.stroke)
          else r.image.pixel? x y := Image.pixel?_fillSpans hinside x y
    _ = _ := if_congr (exists_mem_lineSpans r h x y) rfl rfl

/-- A white page of 40 by 20 pixels with a black pen that is eight pixels wide. -/
noncomputable def page : Raster ℝ :=
  ⟨(Image.clear 40 20).fill Rgb.white, Transform.initial, Rgb.black, 8⟩

theorem page_apply (p : Point ℝ) : page.transform.apply p = p := by
  simp [page, Transform.apply, Transform.initial, Affine.identity, Affine.apply]

theorem page_scaleFactor : page.transform.current.scaleFactor = 1 := by
  simp [page, Transform.initial, Affine.identity, Affine.scaleFactor]

/-- The line on the page is long enough to have a direction. -/
theorem resolved_page : Resolved ⟨10, 10⟩ ⟨30, 10⟩ := by
  have hlength : Point.distance (⟨30, 10⟩ : Point ℝ) ⟨10, 10⟩ = 20 := by
    rw [Point.distance_of_row]
    norm_num
  right
  rw [hlength]
  refine ⟨by norm_num, .inr ?_, .inl ?_⟩ <;> norm_num

/-- The line from `(10, 10)` to `(30, 10)` sets a pixel near its lower edge, and leaves the one at
the same height that is beyond its rounded end. -/
theorem drawLine_round_cap :
    Resolved (page.transform.apply ⟨10, 10⟩) (page.transform.apply ⟨30, 10⟩) ∧
      (page.drawLine ⟨10, 10⟩ ⟨30, 10⟩).image.pixel? 20 13 = some (some Rgb.black) ∧
      (page.drawLine ⟨10, 10⟩ ⟨30, 10⟩).image.pixel? 33 13 = some (some Rgb.white) := by
  have hresolved : Resolved (page.transform.apply ⟨10, 10⟩) (page.transform.apply ⟨30, 10⟩) := by
    rw [page_apply, page_apply]
    exact resolved_page
  have hradius : max (1 / 2) (page.strokeWidth * page.transform.current.scaleFactor / 2) = 4 := by
    rw [page_scaleFactor]
    norm_num [page]
  obtain ⟨-, -, hpixels⟩ := drawLine_exact page ⟨10, 10⟩ ⟨30, 10⟩ hresolved
  rw [hradius, page_apply, page_apply] at hpixels
  refine ⟨hresolved, ?_, ?_⟩
  · rw [hpixels 20 13, if_pos]
    · rfl
    -- The pixel's centre lies above the axis at this share of its length.
    · refine ⟨by decide, by decide, ?_⟩
      rw [Point.near_iff_inDisc (by norm_num)]
      exact ⟨21 / 40, by norm_num, by norm_num, by norm_num [Point.InDisc, Point.toward]⟩
  · rw [hpixels 33 13, if_neg]
    · exact Image.pixel?_fill Rgb.white (Image.clear 40 20) 33 13
    · rintro ⟨-, -, hnear⟩
      rw [Point.near_iff_inDisc (by norm_num)] at hnear
      obtain ⟨t, ht, ht', hdisc⟩ := hnear
      norm_num [Point.InDisc, Point.toward] at hdisc
      -- Past the end the nearest point is the end itself, which is too far away.
      nlinarith

end Raster

end TurtleCurves
