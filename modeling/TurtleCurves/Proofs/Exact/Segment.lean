import TurtleCurves.Proofs.Exact.Scalar
import TurtleCurves.Geometry.Point

namespace TurtleCurves.Point

/-!
# Exact distances

Points over `ℝ` and how far they are from each other and from a segment.

* `distance_sq`, `eq_of_distance_eq_zero`, `distance_of_row` — the distance of two points;
* `toward` — the points of a segment, by the part of the way to its end;
* `Near`, `InDisc` — at most a radius away from a segment and from a centre;
* `near_iff_inDisc` — what is near a segment is in a disc around one of its points;
* `Near.mem_box` — and near the box around the segment.
-/

variable {c center p q : Point ℝ} {radius : ℝ}

/-! ### Two points -/

theorem eq_iff : p = q ↔ p.x = q.x ∧ p.y = q.y := by
  cases p
  cases q
  exact Eq.to_iff (mk.injEq _ _ _ _)

/-- The squared distance of two points. -/
theorem distance_sq (p q : Point ℝ) :
    p.distance q ^ 2 = (p.x - q.x) ^ 2 + (p.y - q.y) ^ 2 := by
  have hnonneg : 0 ≤ (p.x - q.x) * (p.x - q.x) + (p.y - q.y) * (p.y - q.y) :=
    add_nonneg (mul_self_nonneg _) (mul_self_nonneg _)
  rw [distance, exact_hypot, Real.sq_sqrt hnonneg, sq, sq]

/-- Points without a distance are the same. -/
theorem eq_of_distance_eq_zero (h : q.distance p = 0) : p = q := by
  have hsum : (q.x - p.x) ^ 2 + (q.y - p.y) ^ 2 = 0 := by
    rw [← distance_sq, h, sq, mul_zero]
  obtain ⟨hx, hy⟩ := (add_eq_zero_iff_of_nonneg (sq_nonneg _) (sq_nonneg _)).mp hsum
  rw [sq_eq_zero_iff, sub_eq_zero] at hx hy
  exact eq_iff.mpr ⟨hx.symm, hy.symm⟩

/-- The distance of two points of a row. -/
theorem distance_of_row (x x' y : ℝ) : (⟨x, y⟩ : Point ℝ).distance ⟨x', y⟩ = |x - x'| := by
  rw [distance, exact_hypot, sub_self, mul_zero, add_zero, Real.sqrt_mul_self_eq_abs]

/-! ### Segments and discs -/

/-- The point at the part `t` of the way from `p` to `q`. -/
def toward (p q : Point ℝ) (t : ℝ) : Point ℝ := ⟨p.x + t * (q.x - p.x), p.y + t * (q.y - p.y)⟩

/-- The point is at most `radius` away from the segment between `p` and `q`. -/
def Near (c p q : Point ℝ) (radius : ℝ) : Prop :=
  ∃ t, 0 ≤ t ∧ t ≤ 1 ∧ c.distance (p.toward q t) ≤ radius

/-- The point is at most `radius` away from a centre. -/
def InDisc (c center : Point ℝ) (radius : ℝ) : Prop :=
  (c.x - center.x) ^ 2 + (c.y - center.y) ^ 2 ≤ radius ^ 2

@[simp] theorem toward_zero (p q : Point ℝ) : p.toward q 0 = p := by
  simp [toward]

@[simp] theorem toward_one (p q : Point ℝ) : p.toward q 1 = q := by
  simp [toward]

/-- Being close to a centre, without the root. -/
theorem distance_le_iff (h : 0 ≤ radius) (c center : Point ℝ) :
    c.distance center ≤ radius ↔ c.InDisc center radius := by
  rw [distance, exact_hypot, Real.sqrt_le_left h, InDisc]
  simp only [sq]

/-- **What is near a segment** is in a disc around one of its points. -/
theorem near_iff_inDisc (h : 0 ≤ radius) :
    c.Near p q radius ↔ ∃ t, 0 ≤ t ∧ t ≤ 1 ∧ c.InDisc (p.toward q t) radius := by
  simp only [Near, distance_le_iff h]

/-- A segment from a point to itself is that point. -/
theorem near_self (h : 0 ≤ radius) :
    c.Near p p radius ↔ c.InDisc p radius := by
  have htoward (t : ℝ) : p.toward p t = p := by simp [toward]
  rw [near_iff_inDisc h]
  simp only [htoward]
  constructor
  · rintro ⟨-, -, -, hdisc⟩
    exact hdisc
  · intro hdisc
    exact ⟨0, le_refl 0, zero_le_one, hdisc⟩

/-! ### The box of a segment -/

/-- What is near a number on the way from `a` to `b` is near the interval between them. -/
theorem mem_Icc_of_near_part {z a b t : ℝ} (ht : 0 ≤ t) (ht' : t ≤ 1)
    (h : |z - (a + t * (b - a))| ≤ radius) :
    z ∈ Set.Icc (min a b - radius) (max a b + radius) := by
  obtain ⟨hmin, hmax⟩ := mem_Icc_of_part (a := a) (b := b) ht ht'
  rw [mul_comm] at hmin hmax
  obtain ⟨hlo, hhi⟩ := abs_le.mp h
  exact ⟨by linarith, by linarith⟩

/-- In a disc no coordinate is further away than the radius. -/
theorem InDisc.abs_sub_le (h : c.InDisc center radius) (hradius : 0 ≤ radius) :
    |c.x - center.x| ≤ radius ∧ |c.y - center.y| ≤ radius := by
  rw [InDisc] at h
  constructor
  · exact abs_le_of_sq_le_sq (by linarith [sq_nonneg (c.y - center.y)]) hradius
  · exact abs_le_of_sq_le_sq (by linarith [sq_nonneg (c.x - center.x)]) hradius

/-- What is near a segment is near the box around it. -/
theorem Near.mem_box (h : c.Near p q radius) (hradius : 0 ≤ radius) :
    c.x ∈ Set.Icc (min p.x q.x - radius) (max p.x q.x + radius) ∧
      c.y ∈ Set.Icc (min p.y q.y - radius) (max p.y q.y + radius) := by
  obtain ⟨t, ht, ht', hdisc⟩ := (near_iff_inDisc hradius).mp h
  obtain ⟨hcolumn, hrow⟩ := hdisc.abs_sub_le hradius
  exact ⟨mem_Icc_of_near_part ht ht' hcolumn, mem_Icc_of_near_part ht ht' hrow⟩

end TurtleCurves.Point
