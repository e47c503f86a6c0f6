import TurtleCurves.Proofs.Raster.Painting
import TurtleCurves.Raster.Capsule

namespace TurtleCurves

/-!
# Cropped lines

A thick line is cut off at the edges of the image before its ends become rows and columns.

* `Arith.Crops` — what an arithmetic has to do for that: a scalar that is cut off at zero and at the
  last of `n` places has a whole part among them, whatever it was;
* `Extent.columns_inside`, `Capsule.rows_inside` — then the columns and the rows are in the image;
* `Capsule.inside_of_mem_spans` — and so are the painted parts of rows.
-/

/-- Scalars that are cut off at zero and at the last of `n` places have their whole parts among
these. -/
structure Arith.Crops (α : Type) [Arith α] (n : Nat) : Prop where
  nonneg : ∀ x : α, 0 ≤ truncate (max x 0)
  lt : ∀ x : α, truncate (min x (ofNat n - 1)) < n

section Ranges

variable {α : Type} [Arith α]

/-- The columns of an image lie inside the image. -/
theorem Extent.columns_inside {width : Nat} (h : Arith.Crops α width) (e : Extent α) :
    0 ≤ (e.columns width).1 ∧ (e.columns width).2 < width := by
  cases e with
  | whole => exact ⟨Int.le_refl 0, Int.sub_one_lt_of_le (Int.le_refl _)⟩
  | between lo hi => exact ⟨h.nonneg _, h.lt _⟩

end Ranges

namespace Capsule

theorem mem_range {lo hi z : Int} : z ∈ range lo hi ↔ lo ≤ z ∧ z ≤ hi := by
  rw [range, List.mem_map]
  constructor
  · rintro ⟨i, hi', rfl⟩
    rw [List.mem_range] at hi'
    simp only [Int.ofNat_eq_natCast]
    omega
  · rintro ⟨hlo, hhi⟩
    refine ⟨(z - lo).toNat, ?_, ?_⟩
    · rw [List.mem_range]
      omega
    · simp only [Int.ofNat_eq_natCast]
      omega

variable {α : Type} [Scalar α] {k : Capsule α} {width height : Nat}

/-- The rows of an image lie inside the image. -/
theorem rows_inside (h : Arith.Crops α height) (k : Capsule α) :
    0 ≤ (k.rows height).1 ∧ (k.rows height).2 < height := ⟨h.nonneg _, h.lt _⟩

theorem mem_span? {row : Int} {s : Span} :
    s ∈ k.span? width row ↔ ∃ e ∈ k.extent? (Arith.ofNat row.toNat + 0.5),
      ⟨row, (e.columns width).1, (e.columns width).2⟩ = s := by
  rw [span?, Option.mem_def, Option.map_eq_some_iff]
  rfl

theorem mem_spans {s : Span} :
    s ∈ k.spans width height ↔
      ∃ row, ((k.rows height).1 ≤ row ∧ row ≤ (k.rows height).2) ∧ s ∈ k.span? width row := by
  rw [spans, List.mem_filterMap]
  simp only [mem_range]
  rfl

/-- **Nothing outside.** The painted parts of rows are inside the image. -/
theorem inside_of_mem_spans (hwidth : Arith.Crops α width) (hheight : Arith.Crops α height)
    {s : Span} (hs : s ∈ k.spans width height) : s.Inside width height := by
  obtain ⟨row, ⟨hfirst, hlast⟩, hrow⟩ := mem_spans.mp hs
  obtain ⟨e, -, rfl⟩ := mem_span?.mp hrow
  have hrows := k.rows_inside hheight
  have hcolumns := e.columns_inside hwidth
  exact ⟨Int.le_trans hrows.1 hfirst, Int.lt_of_le_of_lt hlast hrows.2, hcolumns.1, hcolumns.2⟩

end Capsule

end TurtleCurves
