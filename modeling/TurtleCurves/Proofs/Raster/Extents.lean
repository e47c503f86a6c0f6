import Mathlib.Order.Interval.Set.OrdConnected
import TurtleCurves.Proofs.Exact.Scalar
import TurtleCurves.Raster.Capsule

namespace TurtleCurves

/-!
# Exact intervals of a row

The intervals of a row as sets of real numbers.

* `Extent.points`, `Extent.pointsOf` — the points of an interval, and of one that may be missing;
* `Extent.pointsOf_bind_meet?`, `Extent.mem_points_shift` — meeting intervals and moving one;
* `Extent.subset_join?`, `Extent.join?_subset` — the hull of two intervals holds both, and stays
  inside every set without gaps that does;
* `Extent.mem_columns` — the columns whose middles are in an interval, no more and no less;
* `pointsOf_discExtent`, `pointsOf_linearExtent` — where a disc and a strip meet a row.
-/

namespace Extent

/-- The points of an interval. -/
def points : Extent ℝ → Set ℝ
  | .whole => Set.univ
  | .between lo hi => Set.Icc lo hi

/-- The points of an interval that may be missing. -/
def pointsOf : Option (Extent ℝ) → Set ℝ
  | none => ∅
  | some e => e.points

@[simp] theorem points_whole : (whole : Extent ℝ).points = Set.univ := rfl

@[simp] theorem points_between (lo hi : ℝ) : (between lo hi).points = Set.Icc lo hi := rfl

@[simp] theorem pointsOf_none : pointsOf none = ∅ := rfl

@[simp] theorem pointsOf_some (e : Extent ℝ) : pointsOf (some e) = e.points := rfl

/-- What is there has points. -/
def Proper (e : Option (Extent ℝ)) : Prop := ∀ d ∈ e, d.points.Nonempty

/-- A missing interval is proper. -/
theorem proper_none : Proper none := fun _ h => nomatch h

/-- So is one that has points. -/
theorem proper_some {e : Extent ℝ} (h : e.points.Nonempty) : Proper (some e) := by
  rintro d ⟨⟩
  exact h

/-! ### Meeting and moving -/

/-- **Meeting** two intervals leaves the points they share. -/
theorem pointsOf_meet? (d e : Extent ℝ) : pointsOf (d.meet? e) = d.points ∩ e.points := by
  cases d with
  | whole => simp [meet?]
  | between a b =>
    cases e with
    | whole => simp [meet?]
    | between c d =>
      rw [points_between, points_between, Set.Icc_inter_Icc, meet?]
      -- Bounded intervals may miss each other: then the lower end is above the upper one.
      split
      · rfl
      · next h => exact (Set.Icc_eq_empty h).symm

/-- The part two intervals share has points, or it is missing. -/
theorem proper_meet? {d e : Extent ℝ} (hd : d.points.Nonempty) (he : e.points.Nonempty) :
    Proper (d.meet? e) := by
  cases d with
  | whole => exact proper_some he
  | between a b =>
    cases e with
    | whole => exact proper_some hd
    | between c d =>
      rw [meet?]
      split
      · next h => exact proper_some (Set.nonempty_Icc.mpr h)
      · exact proper_none

/-- The points of two intervals that may be missing. -/
theorem pointsOf_bind_meet? (d e : Option (Extent ℝ)) :
    pointsOf (d.bind fun a => e.bind a.meet?) = pointsOf d ∩ pointsOf e := by
  cases d with
  | none => simp
  | some d =>
    cases e with
    | none => simp
    | some e => exact pointsOf_meet? d e

/-- So it is with intervals that may be missing themselves. -/
theorem Proper.bind_meet? {d e : Option (Extent ℝ)} (hd : Proper d) (he : Proper e) :
    Proper (d.bind fun a => e.bind a.meet?) := by
  cases d with
  | none => exact proper_none
  | some d =>
    cases e with
    | none => exact proper_none
    | some e => exact proper_meet? (hd d rfl) (he e rfl)

/-- A moved interval holds the moved points. -/
@[simp] theorem mem_points_shift (dx : ℝ) (e : Extent ℝ) (x : ℝ) :
    x ∈ (e.shift dx).points ↔ x - dx ∈ e.points := by
  cases e with
  | whole => simp [shift]
  | between lo hi => simp [shift, le_sub_iff_add_le]

/-- A missing one, moved, holds none. -/
theorem mem_pointsOf_shift (dx : ℝ) (e : Option (Extent ℝ)) (x : ℝ) :
    x ∈ pointsOf (e.map (shift dx)) ↔ x - dx ∈ pointsOf e := by
  cases e with
  | none => simp
  | some e => simp

/-- Moving an interval does not empty it. -/
theorem Proper.shift {e : Option (Extent ℝ)} (h : Proper e) (dx : ℝ) :
    Proper (e.map (shift dx)) := by
  cases e with
  | none => exact proper_none
  | some e =>
    obtain ⟨x, hx⟩ := h e rfl
    exact proper_some ⟨x + dx, by simpa using hx⟩

/-! ### Hulls -/

/-- The hull of two intervals holds both. -/
theorem points_subset_join (d e : Extent ℝ) : d.points ∪ e.points ⊆ (d.join e).points := by
  cases d with
  | whole => exact Set.subset_univ _
  | between a b =>
    cases e with
    | whole => exact Set.subset_univ _
    | between c d =>
      exact Set.union_subset (Set.Icc_subset_Icc (min_le_left ..) (le_max_left ..))
        (Set.Icc_subset_Icc (min_le_right ..) (le_max_right ..))

/-- The ends of the hull are ends of the two intervals, and a set without gaps holds all between
them. -/
theorem join_subset {d e : Extent ℝ} {s : Set ℝ} (hs : s.OrdConnected)
    (hd : d.points.Nonempty) (he : e.points.Nonempty) (hds : d.points ⊆ s)
    (hes : e.points ⊆ s) : (d.join e).points ⊆ s := by
  cases d with
  | whole => exact hds
  | between a b =>
    cases e with
    | whole => exact hes
    | between c d =>
      have hab : a ≤ b := Set.nonempty_Icc.mp hd
      have hcd : c ≤ d := Set.nonempty_Icc.mp he
      -- Each end of the hull is an end of one of the two, so it is in `s`.
      have hlo : min a c ∈ s := by
        rcases min_choice a c with h | h <;> rw [h]
        · exact hds ⟨le_refl a, hab⟩
        · exact hes ⟨le_refl c, hcd⟩
      have hhi : max b d ∈ s := by
        rcases max_choice b d with h | h <;> rw [h]
        · exact hds ⟨hab, le_refl b⟩
        · exact hes ⟨hcd, le_refl d⟩
      exact hs.out hlo hhi

/-- It holds those of two that are there. -/
theorem subset_join? (d e : Option (Extent ℝ)) :
    pointsOf d ∪ pointsOf e ⊆ pointsOf (join? d e) := by
  cases d with
  | none => simp [join?]
  | some d =>
    cases e with
    | none => simp [join?]
    | some e => exact points_subset_join d e

/-- It stays inside every set without gaps that holds them. -/
theorem join?_subset {d e : Option (Extent ℝ)} {s : Set ℝ} (hs : s.OrdConnected)
    (hd : Proper d) (he : Proper e) (hds : pointsOf d ⊆ s) (hes : pointsOf e ⊆ s) :
    pointsOf (join? d e) ⊆ s := by
  cases d with
  | none => exact hes
  | some d =>
    cases e with
    | none => exact hds
    | some e => exact join_subset hs (hd d rfl) (he e rfl) hds hes

/-- The hull of proper intervals is proper. -/
theorem proper_join? {d e : Option (Extent ℝ)} (hd : Proper d) (he : Proper e) :
    Proper (join? d e) := by
  cases d with
  | none => exact he
  | some d =>
    cases e with
    | none => exact hd
    | some e =>
      exact proper_some ((hd d rfl).mono (Set.subset_union_left.trans (points_subset_join d e)))

/-- **The hull of three.** Where the union of three intervals has no gap, joining them one after
the other adds no point. -/
theorem pointsOf_join?_join? {c d e : Option (Extent ℝ)} {s : Set ℝ} (hs : s.OrdConnected)
    (hc : Proper c) (hd : Proper d) (he : Proper e)
    (hunion : pointsOf c ∪ pointsOf d ∪ pointsOf e = s) :
    pointsOf (join? (join? c d) e) = s := by
  obtain ⟨hcds, hes⟩ := Set.union_subset_iff.mp hunion.subset
  obtain ⟨hcs, hds⟩ := Set.union_subset_iff.mp hcds
  -- The set has no gap, so the hull cannot leave it; and it holds the three.
  apply Set.Subset.antisymm
  · exact join?_subset hs (proper_join? hc hd) he (join?_subset hs hc hd hcs hds) hes
  · rw [← hunion]
    exact (Set.union_subset_union_left _ (subset_join? c d)).trans (subset_join? _ e)

/-! ### Columns -/

/-- The columns of a bounded interval, cut off at the borders of the image. -/
theorem columns_between (width : ℕ) (lo hi : ℝ) :
    (between lo hi).columns width =
      (max ⌈lo - 1 / 2⌉ 0, min ⌊hi - 1 / 2⌋ ((width : ℤ) - 1)) := by
  simp only [columns, exact_ceil, exact_floor, exact_count, exact_zero, exact_one, exact_half]
  rw [truncate_max_zero, truncate_min_last]

/-- **Columns by their middles.** Rounding up and down from the ends keeps just the columns of
the image whose middles are in the interval. -/
theorem mem_columns (width : ℕ) (e : Extent ℝ) (x : ℕ) :
    (e.columns width).1 ≤ x ∧ (x : ℤ) ≤ (e.columns width).2 ↔
      x < width ∧ (x + 1 / 2 : ℝ) ∈ e.points := by
  cases e with
  | whole =>
    simp only [columns, points_whole, Set.mem_univ, and_true]
    show (0 : ℤ) ≤ x ∧ (x : ℤ) ≤ (width : ℤ) - 1 ↔ x < width
    omega
  | between lo hi =>
    -- The middle of column `x` is `x + 1/2`, and rounding is adjoint to the embedding of the
    -- integers.
    have hlo : ⌈lo - 1 / 2⌉ ≤ (x : ℤ) ↔ lo ≤ x + 1 / 2 := by
      rw [Int.ceil_le, Int.cast_natCast, sub_le_iff_le_add]
    have hhi : (x : ℤ) ≤ ⌊hi - 1 / 2⌋ ↔ (x + 1 / 2 : ℝ) ≤ hi := by
      rw [Int.le_floor, Int.cast_natCast, le_sub_iff_add_le]
    have hwidth : (x : ℤ) ≤ (width : ℤ) - 1 ↔ x < width := by omega
    have hnonneg : (0 : ℤ) ≤ x := Int.natCast_nonneg x
    rw [columns_between, points_between, Set.mem_Icc, max_le_iff, le_min_iff, hlo, hhi, hwidth]
    constructor
    · rintro ⟨⟨hle, -⟩, hge, hx⟩
      exact ⟨hx, hle, hge⟩
    · rintro ⟨hx, hle, hge⟩
      exact ⟨⟨hle, hnonneg⟩, hge, hx⟩

end Extent

/-! ### Discs and strips -/

/-- A disc meets a row in the points at most `radius` away from its centre. -/
theorem pointsOf_discExtent (center : Point ℝ) (radius y : ℝ) :
    Extent.pointsOf (discExtent center radius y) =
      {x | (x - center.x) ^ 2 + (y - center.y) ^ 2 ≤ radius ^ 2} := by
  ext x
  rw [Set.mem_ofPred_eq, discExtent]
  simp only [exact_zero, exact_sqrt]
  -- The row misses the disc if the rest under the root is negative.
  split
  · next hrest =>
    simp only [Extent.pointsOf_none, Set.mem_empty_iff_false, false_iff, not_le]
    nlinarith [sq_nonneg (x - center.x)]
  · next hrest =>
    have hroot := Real.sq_le (x := x - center.x) (not_lt.mp hrest)
    rw [Extent.pointsOf_some, Extent.points_between, Set.mem_Icc]
    constructor
    · rintro ⟨hlo, hhi⟩
      have := hroot.mpr ⟨by linarith, by linarith⟩
      linarith
    · intro h
      obtain ⟨hlo, hhi⟩ := hroot.mp (by linarith)
      exact ⟨by linarith, by linarith⟩

/-- A disc meets a row in an interval with points, or not at all. -/
theorem proper_discExtent (center : Point ℝ) (radius y : ℝ) :
    Extent.Proper (discExtent center radius y) := by
  rw [discExtent]
  simp only [exact_zero, exact_sqrt]
  split
  · exact Extent.proper_none
  · refine Extent.proper_some (Set.nonempty_Icc.mpr ?_)
    linarith [Real.sqrt_nonneg (radius * radius - (y - center.y) * (y - center.y))]

/-- A slope is zero, or it is not taken for zero. -/
def Sharp (a : ℝ) : Prop := a = 0 ∨ 1e-12 ≤ |a|

/-- The opposite of a sharp slope is sharp. -/
theorem Sharp.neg {a : ℝ} (h : Sharp a) : Sharp (-a) := by
  rwa [Sharp, neg_eq_zero, abs_neg]

/-- The two ends of a strip on a row, for a rising and for a falling form. -/
theorem mem_Icc_div_iff {a : ℝ} (ha : a ≠ 0) {c d : ℝ} (hcd : c ≤ d) (x : ℝ) :
    x ∈ Set.Icc (min (c / a) (d / a)) (max (c / a) (d / a)) ↔ c ≤ a * x ∧ a * x ≤ d := by
  -- A negative slope exchanges the two ends.
  rcases ha.lt_or_gt with ha | ha
  · have hdc : d / a ≤ c / a := (div_le_div_right_of_neg ha).mpr hcd
    rw [min_eq_right hdc, max_eq_left hdc, Set.mem_Icc, div_le_iff_of_neg ha,
      le_div_iff_of_neg ha, mul_comm x a]
    exact and_comm
  · have hdc : c / a ≤ d / a := (div_le_div_iff_of_pos_right ha).mpr hcd
    rw [min_eq_left hdc, max_eq_right hdc, Set.mem_Icc, div_le_iff₀ ha, le_div_iff₀ ha,
      mul_comm x a]

/-- A strip meets a row in the points where its linear form is between its bounds. -/
theorem pointsOf_linearExtent {a lo hi : ℝ} (ha : Sharp a) (h : lo ≤ hi) (b : ℝ) :
    Extent.pointsOf (linearExtent a b lo hi) = {x | lo ≤ a * x + b ∧ a * x + b ≤ hi} := by
  ext x
  rw [Set.mem_ofPred_eq, linearExtent, exact_abs]
  -- A strip along the row holds all of it or nothing; any other crosses it between two ends.
  rcases ha with rfl | ha
  · rw [if_pos (by norm_num), zero_mul, zero_add]
    split
    · next hb => simp [hb]
    · next hb => simp [hb]
  · have hne : a ≠ 0 := by
      rintro rfl
      norm_num at ha
    rw [if_neg (not_lt.mpr ha), ← sub_le_iff_le_add, ← le_sub_iff_add_le]
    exact mem_Icc_div_iff hne (sub_le_sub_right h b) x

/-- A strip meets a row in an interval with points, or not at all. -/
theorem proper_linearExtent (a b lo hi : ℝ) : Extent.Proper (linearExtent a b lo hi) := by
  rw [linearExtent]
  split
  · split
    · exact Extent.proper_some Set.univ_nonempty
    · exact Extent.proper_none
  · exact Extent.proper_some (Set.nonempty_Icc.mpr min_le_max)

end TurtleCurves
