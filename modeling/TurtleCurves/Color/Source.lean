import TurtleCurves.Color.Mode
import TurtleCurves.Color.Palette
import TurtleCurves.Color.SymbolColors

namespace TurtleCurves

/-!
# The colour of a stroke

* `ColorSource` — everything that colours are chosen from;
* `ColorContext` — what may be asked about one stroke;
* `ColorSource.resolve` — the colour of a stroke.
-/

/-- What may be asked about one stroke. -/
structure ColorContext (α : Type) where
  /-- How many strokes came before. -/
  index : Nat
  /-- How many strokes there are. -/
  total : Nat
  /-- How many branches are open. -/
  depth : Nat
  /-- Where the pen is put down. -/
  position : Point α
  /-- The letter that draws. -/
  symbol : Char
  deriving DecidableEq, Repr

/-- Everything that colours are chosen from. -/
structure ColorSource (α : Type) where
  mode : ColorMode
  axis : PositionAxis
  palette : Palette
  symbols : SymbolColors
  /-- The box that positions are measured in; without one every position is at the start. -/
  bounds : Option (Bounds α)

namespace ColorSource

variable {α : Type} [Scalar α]

/-- How far along a list of `total` strokes the one with this index is. -/
def progress (index total : Nat) : α :=
  Arith.ofNat index / Arith.ofNat (max (total - 1) 1)

/-- The colour of a stroke. -/
def resolve (s : ColorSource α) (k : ColorContext α) : Rgb :=
  match s.mode with
  | .flat => s.palette.get 0
  | .paletteGradient => s.palette.gradient (progress k.index k.total : α)
  | .depth => s.palette.get k.depth
  | .position =>
    match s.bounds with
    | some b => s.palette.gradient (s.axis.parameter k.position b)
    | none => s.palette.gradient (0 : α)
  | .perSymbol => s.palette.get ((s.symbols.get? k.symbol).getD 0)

end ColorSource

end TurtleCurves
