import Mathlib.Analysis.Convex.Basic
import TurtleCurves.Proofs.Exact.Segment
import TurtleCurves.Proofs.Raster.Extents

namespace TurtleCurves

/-!
# Exact coverage of a thick line

The points at most `radius` away from a segment, and what `Capsule.extent?` finds of them on a row.

* `Resolved` — two ends that coincide, or whose distance and direction are not taken for zero;
* `Capsule.Covers` — the points of the shape;
* `Capsule.along`, `Capsule.across`, `Capsule.distance_sq_toward` — the place of a point along the
  line and its distance from it, with the theorem of Pythagoras;
* `Capsule.covers_iff` — the shape is made of two discs and a body;
* `Capsule.ordConnected_row` — a row meets the shape in one interval;
* `Capsule.pointsOf_extent?` — the hull of the three intervals of a row is where the row meets the
  shape.
-/

/-- The two ends coincide, or their distance is more than `2⁻⁵²` and neither part of their
direction is a number that is taken for zero without being zero. -/
def Resolved (p q : Point ℝ) : Prop :=
  q.distance p = 0 ∨
    1 / 2 ^ 52 < q.distance p ∧
      Sharp ((q.x - p.x) / q.distance p) ∧ Sharp ((q.y - p.y) / q.distance p)

namespace Capsule

variable {k : Capsule ℝ}

/-- The points of the shape. -/
def Covers (k : Capsule ℝ) (c : Point ℝ) : Prop := c.Near k.start k.stop k.radius

/-! ### The frame of a segment -/

/-- The length of the segment. -/
noncomputable def length (k : Capsule ℝ) : ℝ := k.stop.distance k.start

/-- The unit vector from the start to the stop. -/
noncomputable def heading (k : Capsule ℝ) : Point ℝ :=
  ⟨(k.stop.x - k.start.x) / k.length, (k.stop.y - k.start.y) / k.length⟩

/-- The place of a point along the line, counted from the start. -/
noncomputable def along (k : Capsule ℝ) (c : Point ℝ) : ℝ :=
  k.heading.x * (c.x - k.start.x) + k.heading.y * (c.y - k.start.y)

/-- The distance of a point from the line, with its side as the sign. -/
noncomputable def across (k : Capsule ℝ) (c : Point ℝ) : ℝ :=
  -k.heading.y * (c.x - k.start.x) + k.heading.x * (c.y - k.start.y)

/-- The body of the shape: what lies between the two discs. -/
def InBody (k : Capsule ℝ) (c : Point ℝ) : Prop :=
  |k.across c| ≤ k.radius ∧ 0 ≤ k.along c ∧ k.along c ≤ k.length

/-- The heading has length one. -/
theorem heading_sq (h : 0 < k.length) : k.heading.x ^ 2 + k.heading.y ^ 2 = 1 := by
  have hlength : k.length ^ 2 = _ := Point.distance_sq k.stop k.start
  rw [heading, div_pow, div_pow, ← add_div, ← hlength, div_self (pow_pos h 2).ne']

/-- **Pythagoras.** The squared distance from a point of the segment, by the place along the line
and the distance from the line. -/
theorem distance_sq_toward (h : 0 < k.length) (c : Point ℝ) (t : ℝ) :
    (c.x - (k.start.toward k.stop t).x) ^ 2 + (c.y - (k.start.toward k.stop t).y) ^ 2 =
      k.across c ^ 2 + (k.along c - t * k.length) ^ 2 := by
  have hx : k.stop.x - k.start.x = k.heading.x * k.length := by
    rw [heading, div_mul_cancel₀ _ h.ne']
  have hy : k.stop.y - k.start.y = k.heading.y * k.length := by
    rw [heading, div_mul_cancel₀ _ h.ne']
  simp only [Point.toward, across, along, hx, hy]
  linear_combination (t ^ 2 * k.length ^ 2 - (c.x - k.start.x) ^ 2 - (c.y - k.start.y) ^ 2) *
    heading_sq h

/-- Being in a disc around a point of the segment, by the place along the line and the distance from
it. -/
theorem inDisc_toward (h : 0 < k.length) (c : Point ℝ) (t : ℝ) :
    c.InDisc (k.start.toward k.stop t) k.radius ↔
      k.across c ^ 2 + (k.along c - t * k.length) ^ 2 ≤ k.radius ^ 2 := by
  rw [Point.InDisc, distance_sq_toward h]

/-- **Two discs and a body.** A point of the shape whose place along the line is before the start
is in the disc of the start, one behind the stop is in the disc of the stop, and the others are in
the body. -/
theorem covers_iff (hradius : 0 ≤ k.radius) (h : 0 < k.length) (c : Point ℝ) :
    k.Covers c ↔ c.InDisc k.start k.radius ∨ c.InDisc k.stop k.radius ∨ k.InBody c := by
  rw [Covers, Point.near_iff_inDisc hradius]
  constructor
  · rintro ⟨t, ht, ht', hdisc⟩
    rw [inDisc_toward h] at hdisc
    have hplace : 0 ≤ t * k.length := mul_nonneg ht h.le
    have hplace' : t * k.length ≤ k.length := mul_le_of_le_one_left h.le ht'
    -- Where a disc is left behind, the nearest point of the segment is its end.
    rcases lt_or_ge (k.along c) 0 with hbefore | hbefore
    · left
      rw [← k.start.toward_zero k.stop, inDisc_toward h]
      nlinarith
    · rcases lt_or_ge k.length (k.along c) with hbehind | hbehind
      · right; left
        rw [← k.start.toward_one k.stop, inDisc_toward h]
        nlinarith
      · right; right
        refine ⟨abs_le_of_sq_le_sq ?_ hradius, hbefore, hbehind⟩
        linarith [sq_nonneg (k.along c - t * k.length)]
  · rintro (hdisc | hdisc | ⟨hacross, hbefore, hbehind⟩)
    · exact ⟨0, le_refl 0, zero_le_one, by rwa [Point.toward_zero]⟩
    · exact ⟨1, zero_le_one, le_refl 1, by rwa [Point.toward_one]⟩
    · -- The foot of the perpendicular is a point of the segment.
      refine ⟨k.along c / k.length, div_nonneg hbefore h.le, (div_le_one h).mpr hbehind, ?_⟩
      rw [inDisc_toward h, div_mul_cancel₀ _ h.ne', sub_self]
      have hsq : k.across c ^ 2 ≤ k.radius ^ 2 := sq_le_sq.mpr (hacross.trans (le_abs_self _))
      linarith

/-! ### Rows of the shape -/

/-- Squaring is convex. -/
theorem sq_combination_le {a b : ℝ} (ha : 0 ≤ a) (hb : 0 ≤ b) (hab : a + b = 1) (u v : ℝ) :
    (a * u + b * v) ^ 2 ≤ a * u ^ 2 + b * v ^ 2 := by
  have hgap : a * u ^ 2 + b * v ^ 2 - (a * u + b * v) ^ 2 = a * b * (u - v) ^ 2 := by
    obtain rfl : b = 1 - a := by linarith
    ring
  linarith [mul_nonneg (mul_nonneg ha hb) (sq_nonneg (u - v))]

/-- A disc holds every point between two of its points. -/
theorem sq_add_sq_combination_le {a b : ℝ} (ha : 0 ≤ a) (hb : 0 ≤ b) (hab : a + b = 1)
    {u v u' v' s : ℝ} (h : u ^ 2 + v ^ 2 ≤ s) (h' : u' ^ 2 + v' ^ 2 ≤ s) :
    (a * u + b * u') ^ 2 + (a * v + b * v') ^ 2 ≤ s := by
  calc (a * u + b * u') ^ 2 + (a * v + b * v') ^ 2
      ≤ (a * u ^ 2 + b * u' ^ 2) + (a * v ^ 2 + b * v' ^ 2) :=
        add_le_add (sq_combination_le ha hb hab u u') (sq_combination_le ha hb hab v v')
    _ = a * (u ^ 2 + v ^ 2) + b * (u' ^ 2 + v' ^ 2) := by ring
    _ ≤ a * s + b * s :=
        add_le_add (mul_le_mul_of_nonneg_left h ha) (mul_le_mul_of_nonneg_left h' hb)
    _ = s := by rw [← add_mul, hab, one_mul]

/-- **No gaps.** Between two points of a row that are near two points of the segment, every point
is near the point of the segment that divides those two the same way. -/
theorem ordConnected_row (hradius : 0 ≤ k.radius) (y : ℝ) :
    {x | k.Covers ⟨x, y⟩}.OrdConnected := by
  apply Convex.ordConnected
  intro x hx x' hx' a b ha hb hab
  simp only [Set.mem_ofPred_eq, Covers, Point.near_iff_inDisc hradius] at hx hx' ⊢
  obtain ⟨t, ht, ht1, hdisc⟩ := hx
  obtain ⟨t', ht', ht1', hdisc'⟩ := hx'
  have hle : a * t + b * t' ≤ 1 :=
    calc a * t + b * t' ≤ a * 1 + b * 1 :=
          add_le_add (mul_le_mul_of_nonneg_left ht1 ha) (mul_le_mul_of_nonneg_left ht1' hb)
      _ = 1 := by rw [mul_one, mul_one, hab]
  -- The point of the axis for the combination is the combination of the two points.
  refine ⟨a * t + b * t', by positivity, hle, ?_⟩
  simp only [Point.InDisc, Point.toward, smul_eq_mul] at hdisc hdisc' ⊢
  have hcolumn : a * x + b * x' - (k.start.x + (a * t + b * t') * (k.stop.x - k.start.x)) =
      a * (x - (k.start.x + t * (k.stop.x - k.start.x))) +
        b * (x' - (k.start.x + t' * (k.stop.x - k.start.x))) := by
    linear_combination k.start.x * hab
  have hrow : y - (k.start.y + (a * t + b * t') * (k.stop.y - k.start.y)) =
      a * (y - (k.start.y + t * (k.stop.y - k.start.y))) +
        b * (y - (k.start.y + t' * (k.stop.y - k.start.y))) := by
    linear_combination (k.start.y - y) * hab
  rw [hcolumn, hrow]
  exact sq_add_sq_combination_le ha hb hab hdisc hdisc'

/-- The least length that is not taken for zero. -/
theorem shortest_eq : (shortest : ℝ) = 1 / 2 ^ 52 := by
  rw [shortest, exact_one, exact_ofNat]
  norm_num

/-- A segment without a length has no body. -/
theorem bodyExtent_of_length_eq_zero (h : k.length = 0) (y : ℝ) : k.bodyExtent y = none := by
  have hlength : Scalar.hypot (k.stop.x - k.start.x) (k.stop.y - k.start.y) = 0 := h
  rw [bodyExtent, hlength, shortest_eq]
  exact if_neg (by norm_num)

/-- The two strips of the body, in the frame of the segment. -/
theorem bodyExtent_of_shortest_lt (h : 1 / 2 ^ 52 < k.length) (y : ℝ) :
    k.bodyExtent y =
      ((linearExtent (-k.heading.y) (k.heading.x * (y - k.start.y)) (-k.radius) k.radius).bind
        fun across => (linearExtent k.heading.x (k.heading.y * (y - k.start.y)) 0 k.length).bind
          across.meet?).map (Extent.shift k.start.x) := by
  have hlong : shortest < Scalar.hypot (k.stop.x - k.start.x) (k.stop.y - k.start.y) := by
    rw [shortest_eq]
    exact h
  rw [bodyExtent, if_pos hlong, exact_zero]
  simp only [heading, length, Point.distance]
  split
  · next hacross halong =>
    rw [hacross, halong]
    rfl
  -- A row that misses one of the two strips misses the body.
  · next hmissing =>
    refine (Option.map_eq_none_iff.mpr (Option.bind_eq_none_iff.mpr fun across hacross => ?_)).symm
    refine Option.bind_eq_none_iff.mpr fun along halong => ?_
    exact (hmissing across along hacross halong).elim

/-- The body meets a row where it should. -/
theorem pointsOf_bodyExtent (hradius : 0 ≤ k.radius) (h : 1 / 2 ^ 52 < k.length)
    (hx : Sharp k.heading.x) (hy : Sharp k.heading.y) (y : ℝ) :
    Extent.pointsOf (k.bodyExtent y) = {x | k.InBody ⟨x, y⟩} := by
  have hlength : 0 ≤ k.length := le_trans (by norm_num) h.le
  ext x
  rw [bodyExtent_of_shortest_lt h, Extent.mem_pointsOf_shift, Extent.pointsOf_bind_meet?,
    pointsOf_linearExtent hy.neg (neg_le_self hradius), pointsOf_linearExtent hx hlength,
    Set.mem_ofPred_eq, InBody, abs_le]
  rfl

/-- The body meets a row in an interval with points, or not at all. -/
theorem proper_bodyExtent (h : 1 / 2 ^ 52 < k.length) (y : ℝ) :
    Extent.Proper (k.bodyExtent y) := by
  rw [bodyExtent_of_shortest_lt h]
  exact (Extent.Proper.bind_meet? (proper_linearExtent _ _ _ _)
    (proper_linearExtent _ _ _ _)).shift _

/-- **The extent of a row is exact.** The hull of the two discs and the body is where the row
meets the shape. -/
theorem pointsOf_extent? (hradius : 0 ≤ k.radius) (h : Resolved k.start k.stop) (y : ℝ) :
    Extent.pointsOf (k.extent? y) = {x | k.Covers ⟨x, y⟩} := by
  have hstart := pointsOf_discExtent k.start k.radius y
  have hstop := pointsOf_discExtent k.stop k.radius y
  rw [extent?]
  rcases h with h | ⟨hlength, hx, hy⟩
  · -- The ends coincide: both discs are the shape, and there is no body.
    apply Extent.pointsOf_join?_join? (ordConnected_row hradius y)
      (proper_discExtent k.start k.radius y) (proper_discExtent k.stop k.radius y)
    · rw [bodyExtent_of_length_eq_zero h]
      exact Extent.proper_none
    · ext x
      rw [bodyExtent_of_length_eq_zero h, hstart, hstop, Extent.pointsOf_none, Set.union_empty,
        ← Point.eq_of_distance_eq_zero h, Set.union_self, Set.mem_ofPred_eq, Set.mem_ofPred_eq,
        Covers, ← Point.eq_of_distance_eq_zero h, Point.near_self hradius]
      rfl
  · have hpos : 0 < k.length := lt_trans (by norm_num) hlength
    apply Extent.pointsOf_join?_join? (ordConnected_row hradius y)
      (proper_discExtent k.start k.radius y) (proper_discExtent k.stop k.radius y)
      (proper_bodyExtent hlength y)
    ext x
    rw [pointsOf_bodyExtent hradius hlength hx hy, hstart, hstop, Set.mem_ofPred_eq,
      covers_iff hradius hpos, ← or_assoc]
    rfl

end Capsule

end TurtleCurves
