import TurtleCurves.SortedMap

namespace TurtleCurves

/-!
# Colours of letters

`SymbolColors` assigns palette stops to letters; `SymbolColors.refresh` fits the assignment to
another alphabet.
-/

/-- Which palette stop a letter is drawn with. -/
abbrev SymbolColors := SortedMap Char Nat

namespace SymbolColors

/-- A letter that has no stop yet gets the one of its place in the alphabet. -/
def adopt (stops : Nat) (m : SymbolColors) (entry : Char × Nat) : SymbolColors :=
  if m.contains entry.1 then m else m.insert entry.1 (entry.2 % stops)

/-- The assignment for another alphabet: letters outside it are dropped, known letters keep
their stop, and new ones get their place in the alphabet, wrapped around the palette. -/
def refresh (m : SymbolColors) (alphabet : List Char) (paletteSize : Nat) : SymbolColors :=
  alphabet.zipIdx.foldl (adopt (max paletteSize 1)) (m.filterKeys alphabet.contains)

end SymbolColors

end TurtleCurves
