import TurtleCurves.Proofs.Color.Position
import TurtleCurves.Proofs.Frame.Colors
import TurtleCurves.Proofs.Turtle.Extent

namespace TurtleCurves.Frame

/-!
# Positions in a frame

A frame that colours by position measures the box of the drawing in one walk and asks for positions
in another.  Both walks come to the same places, so that every position is asked for inside the box.

* `contains_start` — the box that a derivation answers holds the start of every stroke;
* `positions_draw` — hence every position that a frame asks for is in range.
-/

/-- The box of a derivation holds the start of every stroke of its walk, whatever was asked of the
derivation before. -/
theorem contains_start (g : Grammar ℝ) (rs : List Derivation.Request) {s : Stroke ℝ} :
    let d := ((Derivation.start g).askAll rs).2
    s ∈ Walk.strokes g.gait d.sentence → d.bounds.Contains s.start := by
  intro d hs
  have hshows := ((Derivation.Shows.start g).askAll rs).2
  rw [hshows.coherent.bounds, hshows.grammar]
  exact (Walk.isHull_places g.gait d.sentence).contains _ (Walk.start_mem_places hs)

/-- **Positions are in range.** In exact arithmetic, for every grammar, every word that its
derivation comes to and every axis: a frame that colours by position draws each line in the colour
of the gradient at a parameter, and this parameter comes out between `0` and `1` by itself, without
a division by zero and without being cut off. -/
theorem positions_draw (g : Grammar ℝ) (rs : List Derivation.Request) (v : Viewport ℝ)
    (colors : ColorSource ℝ) (hmode : colors.mode = .position) (background : Rgb) (px : ℝ)
    (prior : Rgb) :
    let d := ((Derivation.start g).askAll rs).2
    let parameterOf (s : Stroke ℝ) := colors.axis.parameter s.start d.bounds
    Call.lineColors prior (draw d v colors background px) =
        (Walk.strokes g.gait d.sentence).map
          (fun s => colors.palette.gradient (parameterOf s)) ∧
      ∀ s ∈ Walk.strokes g.gait d.sentence,
        colors.axis.position? s.start d.bounds = some (parameterOf s) ∧
          0 ≤ parameterOf s ∧ parameterOf s ≤ 1 := by
  intro d parameterOf
  refine ⟨?_, fun s hs => colors.axis.parameter_of_contains (contains_start g rs hs)⟩
  rw [lineColors_draw_eq_map, ((Derivation.Shows.start g).askAll rs).2.grammar]
  -- Colouring by position informs every stroke of the box that the derivation answers.
  refine List.map_congr_left fun s _ => ?_
  rw [ColorSource.resolve, informed, hmode]
  rfl

/-- A drawing that is smaller than the least reach, and in it a stroke that starts where a branch
began. -/
theorem positions_draw_tiny :
    let g : Grammar ℝ := ⟨['F', '[', '+', 'F', ']', 'F'], SortedMap.empty, 90, 1 / 10000, 0, ⟨0, 0⟩⟩
    let colors : ColorSource ℝ := ⟨.position, .radial, Palette.default, SortedMap.empty, none⟩
    let first := Turtle.forward g.gait (Turtle.start g.gait).pose
    let last : Stroke ℝ := ⟨2, 0, first.position, (Turtle.forward g.gait first).position, 'F'⟩
    let b := (Derivation.start g).bounds
    colors.mode = .position ∧ last ∈ Walk.strokes g.gait g.seed ∧
      (Call.lineColors Rgb.black
        (draw (Derivation.start g) (Viewport.ofSize 200 200) colors Rgb.black 1)).length = 3 ∧
      PositionAxis.position? .radial first.position b =
        some (PositionAxis.parameter .radial first.position b) ∧
      0 ≤ PositionAxis.parameter .radial first.position b ∧
      PositionAxis.parameter .radial first.position b ≤ 1 := by
  intro g colors first last b
  have hmode : colors.mode = .position := rfl
  -- The strokes are a ten-thousandth long, which the division by the reach has to bear.
  have hlast : last ∈ Walk.strokes g.gait g.seed :=
    List.mem_cons_of_mem _ (List.mem_cons_of_mem _ List.mem_cons_self)
  obtain ⟨hlines, hrange⟩ :=
    positions_draw g [] (Viewport.ofSize 200 200) colors hmode Rgb.black 1 Rgb.black
  have hthree : (Walk.strokes g.gait g.seed).length = 3 := by
    rw [Walk.length_strokes]
    decide
  refine ⟨hmode, hlast, ?_, hrange last hlast⟩
  rw [← hthree]
  exact (congrArg List.length hlines).trans (List.length_map _)

end TurtleCurves.Frame
