import TurtleCurves.Proofs.Turtle.Protocol
import TurtleCurves.Proofs.Geometry.Hull

namespace TurtleCurves

/-!
# The extent of a walk

The box of a walk is grown over the ends of its strokes only.  It holds all that the pen comes to,
since a stroke starts where an earlier one ended, even if it was a long time ago.

* `Action.PenAt.mem_places` — actions leave the pen at the origin or at the end of one of their
  strokes;
* `Walk.isHull_places` — the box is tight around these places;
* `Walk.within_bounds` — a beginning of a word has its box in that of the word;
* `Walk.isHull_bounds` — the box of a walk, over every linear order of coordinates.
-/

variable {α : Type}

namespace Action

/-- Where an action ends is where its stroke does. -/
theorem stop?_eq (a : Action α) : a.stop? = a.stroke?.map Stroke.stop := by
  cases a with
  | draw s => rfl
  | turn degrees => rfl
  | push => rfl
  | pop => rfl

variable [Scalar α]

/-- The places that a list of actions can leave the pen at. -/
def places (actions : List (Action α)) : List (Point α) :=
  Point.origin :: (actions.filterMap stroke?).map Stroke.stop

theorem mem_places_append {actions : List (Action α)} {p : Point α} (h : p ∈ places actions)
    (more : List (Action α)) : p ∈ places (actions ++ more) := by
  rw [places, List.filterMap_append, List.map_append, ← List.cons_append]
  exact List.mem_append_left _ h

/-- The pen is at the origin or at the end of a stroke, restored or not. -/
theorem PenAt.mem_places {actions : List (Action α)} {p : Point α} (h : PenAt actions p) :
    p ∈ places actions := by
  induction h with
  | origin _ => exact List.mem_cons_self
  | drawn before s _ =>
    refine List.mem_cons_of_mem _ (List.mem_map_of_mem ?_)
    exact List.mem_filterMap.mpr ⟨.draw s, List.mem_append_right _ List.mem_cons_self, rfl⟩
  | restored _ _ _ ih =>
    -- Where the pen was at the push is already a place of what came before it.
    rw [List.append_assoc]
    exact mem_places_append ih _

end Action

namespace Walk

variable [Scalar α]

/-! ### The places of a walk -/

theorem bounds_eq (g : Gait α) (w : Word) :
    bounds g w = Bounds.atOrigin.hull ((strokes g w).map Stroke.stop) := by
  simp only [bounds, strokes, List.map_filterMap, ← Action.stop?_eq]

/-- Every stroke of a walk starts at one of its places. -/
theorem start_mem_places {g : Gait α} {w : Word} {s : Stroke α} (hs : s ∈ strokes g w) :
    s.start ∈ Action.places (walk g w).1 := by
  obtain ⟨a, ha, hstroke⟩ := List.mem_filterMap.mp hs
  cases a with
  | draw k =>
    obtain rfl := Option.some.inj hstroke
    obtain ⟨before, after, hsplit⟩ := List.append_of_mem ha
    rw [hsplit]
    exact Action.mem_places_append (stroke_of_append hsplit).1.mem_places _
  | turn degrees => cases hstroke
  | push => cases hstroke
  | pop => cases hstroke

/-- The walk ends at one of its places. -/
theorem position_mem_places (g : Gait α) (w : Word) :
    (walk g w).2.position ∈ Action.places (walk g w).1 :=
  (Turtle.penAt_read g w).mem_places

variable [Std.IsLinearOrder α] [Std.LawfulOrderMin α] [Std.LawfulOrderMax α]

/-! ### The box of a walk -/

theorem isHull_places (g : Gait α) (w : Word) :
    (bounds g w).IsHull (Action.places (walk g w).1) := by
  have horigin : (Bounds.atOrigin : Bounds α).IsHull [Point.origin] := by
    refine ⟨?_, List.mem_cons_self, List.mem_cons_self, List.mem_cons_self, List.mem_cons_self⟩
    intro p hp
    rw [List.mem_singleton.mp hp]
    exact ⟨Std.le_refl _, Std.le_refl _, Std.le_refl _, Std.le_refl _⟩
  rw [bounds_eq]
  exact horigin.hull _

/-- The box of a beginning lies in the box of the word. -/
theorem within_bounds (g : Gait α) {v w : Word} (h : v <+: w) :
    (bounds g v).Within (bounds g w) := by
  obtain ⟨u, rfl⟩ := h
  have hmore : bounds g (v ++ u) = (bounds g v).hull
      ((((Turtle.start g).read g v).2.read g u).1.filterMap Action.stop?) := by
    rw [bounds, walk, Turtle.read_append, List.filterMap_append, Bounds.hull_append]
    rfl
  rw [hmore]
  exact Bounds.within_hull _ _

/-- **The box of a walk is tight.**  Over every linear order of coordinates with its own minimum and
maximum, the box of every word, whatever the measures, holds the origin and the ends of all strokes,
and each of its sides is at one of these; it holds the starts of all strokes, restored positions
among them, and the last position; the box of every beginning of the word lies in it; and it is what
every derivation that has grown to the word answers. -/
theorem isHull_bounds (g : Gait α) (w : Word) :
    let b := bounds g w
    b.IsHull (Point.origin :: (strokes g w).map Stroke.stop) ∧
      (∀ s ∈ strokes g w, b.Contains s.start) ∧ b.Contains (walk g w).2.position ∧
      (∀ v, v <+: w → (bounds g v).Within b) ∧
      ∀ (m : Grammar α) (rs : List Derivation.Request),
        let d := ((Derivation.start m).askAll rs).2
        m.gait = g → d.sentence = w → d.bounds = b := by
  intro b
  have hhull := isHull_places g w
  refine ⟨hhull, fun s hs => hhull.contains _ (start_mem_places hs),
    hhull.contains _ (position_mem_places g w), fun v => within_bounds g, ?_⟩
  intro m rs d hg hw
  -- What a derivation answers is kept along its requests, so it is the box of the word it shows.
  have hshows := ((Derivation.Shows.start m).askAll rs).2
  rw [hshows.coherent.bounds, hshows.grammar, hg, hw]

/-- A branch to the side, and a stroke that starts where the branch began. -/
theorem isHull_bounds_branch :
    let g : Gait ℝ := ⟨10, 90, 0⟩
    let w : Word := ['F', '[', '+', 'F', ']', 'F']
    let v : Word := ['F', '[', '+']
    let m : Grammar ℝ := ⟨w, SortedMap.empty, 90, 10, 0, ⟨0, 0⟩⟩
    let first := Turtle.forward g (Turtle.start g).pose
    let side := Turtle.forward g ⟨first.position, first.heading + Scalar.radians 90⟩
    let last : Stroke ℝ := ⟨2, 0, first.position, (Turtle.forward g first).position, 'F'⟩
    let b := bounds g w
    last ∈ strokes g w ∧ v <+: w ∧
      b.IsHull [Point.origin, first.position, side.position, last.stop] ∧
      b.Contains last.start ∧ (bounds g v).Within b ∧ (Derivation.start m).bounds = b := by
  intro g w v m first side last b
  have hstrokes : strokes g w = [⟨0, 0, Point.origin, first.position, 'F'⟩,
      ⟨1, 1, first.position, side.position, 'F'⟩, last] := rfl
  have hlast : last ∈ strokes g w := by
    rw [hstrokes]
    exact List.mem_cons_of_mem _ (List.mem_cons_of_mem _ List.mem_cons_self)
  have hv : v <+: w := ⟨['F', ']', 'F'], rfl⟩
  obtain ⟨hhull, hstart, -, hprefix, hderivation⟩ := isHull_bounds g w
  rw [hstrokes] at hhull
  exact ⟨hlast, hv, hhull, hstart last hlast, hprefix v hv, hderivation m [] rfl rfl⟩

end Walk

end TurtleCurves
