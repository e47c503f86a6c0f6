import TurtleCurves.Preset.Basic

namespace TurtleCurves

/-!
# Built-in presets

Sixteen classic curves and plants, placed for a square canvas.
-/

namespace Preset

variable {α : Type} [Arith α]

/-- A preset from its parts. -/
def classic (key name seed : String) (rules : List (Char × String))
    (angle length startAngle : α) (origin : α × α) : Preset α :=
  ⟨key, name,
    { seed := seed.toList
      rules := SortedMap.ofList (rules.map fun r => (r.1, r.2.toList))
      angle := angle
      length := length
      startAngle := startAngle
      origin := ⟨origin.1, origin.2⟩ }⟩

/-- The built-in presets in the order they are offered. -/
def builtin : List (Preset α) :=
  [classic "koch" "Koch Curve" "F" [('F', "F+F--F+F")] 60 5 0 (0, 0.4),
   classic "dragon" "Dragon Curve" "FX" [('X', "X+YF"), ('Y', "FX-Y")] 90 8 0 (0.5, 0.5),
   classic "hilbert" "Hilbert Curve" "A" [('A', "+BF-AFA-FB+"), ('B', "-AF+BFB+FA-")] 90 8 0
     (0, 0),
   classic "tree" "Tree" "F" [('F', "F[+F]F[-F]F")] 25 10 (-90) (0.5, 1),
   classic "sierpinski" "Sierpinski Triangle" "F-G-G" [('F', "F-G+F+G-F"), ('G', "GG")] 120 10 0
     (0, 1),
   classic "sierpinskiArrow" "Sierpinski Arrowhead" "A" [('A', "B-A-B"), ('B', "A+B+A")] 60 10 0
     (0, 0.5),
   classic "peano" "Peano Curve" "X"
     [('X', "XFYFX+F+YFXFY-F-XFYFX"), ('Y', "YFXFY-F-XFYFX+F+YFXFY")] 90 5 0 (0, 0),
   classic "gosper" "Gosper Curve" "A" [('A', "A-B--B+A++AA+B-"), ('B', "+A-BB--B-A++A+B")] 60 10
     0 (0.5, 1),
   classic "levy" "Levy C Curve" "F" [('F', "+F--F+")] 45 10 0 (0.5, 0.5),
   classic "fern" "Fern" "X" [('X', "F+[[X]-X]-F[-FX]+X"), ('F', "FF")] 25 8 (-90) (0.5, 0.95),
   classic "crystal" "Crystal" "F+F+F+F" [('F', "FF+F++F+F")] 90 6 0 (0.15, 0.5),
   classic "moore" "Moore Curve" "LFL+F+LFL" [('L', "-RF+LFL+FR-"), ('R', "+LF-RFR-FL+")] 90 8 0
     (0, 0),
   classic "snowflake" "Snowflake" "F++F++F" [('F', "F-F++F-F")] 60 8 0 (0.25, 0.7),
   classic "quadraticKoch" "Quadratic Koch" "F-F-F-F" [('F', "F-F+F+FF-F-F+F")] 90 5 0
     (0.1, 0.35),
   classic "bush" "Bush" "Y" [('X', "X[-FFF][+FFF]FX"), ('Y', "YFX[+Y][-Y]")] 25.7 8 (-90)
     (0.5, 0.95),
   classic "pentigree" "Pentigree" "F-F-F-F-F" [('F', "F-F++F+F-F-F")] 72 8 0 (0.5, 0.6)]

end Preset

/-- The table of the built-in presets. -/
def PresetTable.builtin {α : Type} [Arith α] : PresetTable α := ofList Preset.builtin

end TurtleCurves
