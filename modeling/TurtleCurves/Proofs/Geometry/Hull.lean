import TurtleCurves.Geometry.Bounds

namespace TurtleCurves.Bounds

/-!
# Tight boxes

What a box that has been grown to hold points holds, over every linear order of coordinates.

* `Contains`, `Within` — a point in a box and a box in a box, sides included;
* `IsHull` — a box holds some points, and each of its sides is at one of them;
* `within_hull` — a box that is grown holds what it held;
* `IsHull.hull` — a tight box that is grown to hold more points is tight around all of them.
-/

variable {α : Type}

/-- What stays or is new is on the list with the new element. -/
theorem mem_concat_of_eq_or {x y z : α} {xs : List α} (h : z = x ∨ z = y) (hx : x ∈ xs) :
    z ∈ xs ++ [y] := by
  rcases h with rfl | rfl
  · exact List.mem_append_left _ hx
  · exact List.mem_append_right _ List.mem_cons_self

variable [LE α]

/-- The point lies in the box or on one of its sides. -/
structure Contains (b : Bounds α) (p : Point α) : Prop where
  minX_le : b.minX ≤ p.x
  le_maxX : p.x ≤ b.maxX
  minY_le : b.minY ≤ p.y
  le_maxY : p.y ≤ b.maxY

/-- The box `b` lies in the box `c`. -/
structure Within (b c : Bounds α) : Prop where
  minX_le : c.minX ≤ b.minX
  le_maxX : b.maxX ≤ c.maxX
  minY_le : c.minY ≤ b.minY
  le_maxY : b.maxY ≤ c.maxY

/-- The tight box of some points: it holds all of them, and each of its sides is at one. -/
structure IsHull (b : Bounds α) (ps : List (Point α)) : Prop where
  contains (p : Point α) : p ∈ ps → b.Contains p
  minX_mem : b.minX ∈ ps.map Point.x
  maxX_mem : b.maxX ∈ ps.map Point.x
  minY_mem : b.minY ∈ ps.map Point.y
  maxY_mem : b.maxY ∈ ps.map Point.y

variable [Std.IsLinearOrder α] {b c : Bounds α} {p : Point α}

/-! ### Boxes in boxes -/

theorem Within.refl (b : Bounds α) : b.Within b :=
  ⟨Std.le_refl _, Std.le_refl _, Std.le_refl _, Std.le_refl _⟩

theorem Within.trans {d : Bounds α} (hbc : b.Within c) (hcd : c.Within d) : b.Within d where
  minX_le := Std.le_trans hcd.minX_le hbc.minX_le
  le_maxX := Std.le_trans hbc.le_maxX hcd.le_maxX
  minY_le := Std.le_trans hcd.minY_le hbc.minY_le
  le_maxY := Std.le_trans hbc.le_maxY hcd.le_maxY

/-- A larger box holds what a smaller one holds. -/
theorem Contains.of_within (hp : b.Contains p) (hbc : b.Within c) : c.Contains p where
  minX_le := Std.le_trans hbc.minX_le hp.minX_le
  le_maxX := Std.le_trans hp.le_maxX hbc.le_maxX
  minY_le := Std.le_trans hbc.minY_le hp.minY_le
  le_maxY := Std.le_trans hp.le_maxY hbc.le_maxY

/-! ### One point more -/

variable [Min α] [Max α] [Std.LawfulOrderMin α] [Std.LawfulOrderMax α]

/-- A box that takes in a point holds what it held. -/
theorem within_enclose (b : Bounds α) (p : Point α) : b.Within (b.enclose p) :=
  ⟨Std.min_le_left, Std.left_le_max, Std.min_le_left, Std.left_le_max⟩

/-- It holds the point. -/
theorem contains_enclose (b : Bounds α) (p : Point α) : (b.enclose p).Contains p :=
  ⟨Std.min_le_right, Std.right_le_max, Std.min_le_right, Std.right_le_max⟩

/-- **One more point:** a side stays where it was, or moves to that point. -/
theorem IsHull.enclose {ps : List (Point α)} (h : b.IsHull ps) (p : Point α) :
    (b.enclose p).IsHull (ps ++ [p]) where
  contains q hq := by
    rcases List.mem_append.mp hq with hq | hq
    · exact (h.contains q hq).of_within (within_enclose b p)
    · rw [List.mem_singleton.mp hq]
      exact contains_enclose b p
  minX_mem := by
    -- Each side is the old one or the new point's coordinate, and so it is attained.
    rw [List.map_append]
    exact mem_concat_of_eq_or Std.min_eq_or h.minX_mem
  maxX_mem := by
    rw [List.map_append]
    exact mem_concat_of_eq_or Std.max_eq_or h.maxX_mem
  minY_mem := by
    rw [List.map_append]
    exact mem_concat_of_eq_or Std.min_eq_or h.minY_mem
  maxY_mem := by
    rw [List.map_append]
    exact mem_concat_of_eq_or Std.max_eq_or h.maxY_mem

/-! ### Many points more -/

/-- A box that takes in many points holds what it held. -/
theorem within_hull (b : Bounds α) (ps : List (Point α)) : b.Within (b.hull ps) := by
  induction ps generalizing b with
  | nil => exact .refl b
  | cons p ps ih => exact (within_enclose b p).trans (ih (b.enclose p))

/-- **Tight boxes stay tight.** -/
theorem IsHull.hull {ps : List (Point α)} (h : b.IsHull ps) (qs : List (Point α)) :
    (b.hull qs).IsHull (ps ++ qs) := by
  induction qs generalizing b ps with
  | nil =>
    rw [List.append_nil]
    exact h
  | cons q qs ih =>
    rw [List.append_cons]
    exact ih (h.enclose q)

end TurtleCurves.Bounds
