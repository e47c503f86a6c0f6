import TurtleCurves.Decimal.Shortest
import TurtleCurves.Scalar

namespace TurtleCurves

/-!
# Double precision

The instance that runs: doubles, with 53 binary digits.  Minimum and maximum pass over an
operand that is no number, casts to whole numbers stay inside 64 bits, and `Binary64.hypot`
neither overflows nor underflows before its result does.  Rounding to whole numbers is done with the
whole part, `Binary64.wholePart`: a double from `2 ^ 52` on has no places behind the point, and a
zero keeps its sign.
-/

namespace Binary64

/-- The smaller operand; an operand that is no number is passed over. -/
def minimum (x y : Float) : Float :=
  if x.isNaN then y else if y.isNaN then x else if y < x then y else x

/-- The larger operand; an operand that is no number is passed over. -/
def maximum (x y : Float) : Float :=
  if x.isNaN then y else if y.isNaN then x else if x < y then y else x

/-- The whole part of a number, toward zero and inside the 64 bits of a signed whole number; what is
no number has the whole part `0`. -/
def truncate (x : Float) : Int :=
  if x < 0 then -Int.ofNat (min (-x).toUInt64.toNat (Nat.pow 2 63))
  else Int.ofNat (min x.toUInt64.toNat (Nat.pow 2 63 - 1))

/-- The whole part of a number as a double, with the sign of the number.  A double that is no number
stays as it is. -/
def wholePart (x : Float) : Float :=
  if x.abs < 4503599627370496 then
    let whole := truncate x
    if whole = 0 then x * 0 else Float.ofInt whole
  else x

/-- The largest whole number that is not above `x`. -/
def floor (x : Float) : Float :=
  let whole := wholePart x
  if x < whole then whole - 1 else whole

/-- The least whole number that is not below `x`. -/
def ceil (x : Float) : Float :=
  let whole := wholePart x
  if whole < x then whole + 1 else whole

/-- The nearest whole number, halves away from zero. -/
def round (x : Float) : Float :=
  let whole := wholePart x
  -- Nothing is rounded here: the places behind the point have digits enough for themselves.
  let rest := x - whole
  if 0.5 ≤ rest then whole + 1 else if rest ≤ -0.5 then whole - 1 else whole

/-- The length of a vector whose sides `0 ≤ y ≤ x` have squares in range: the root of the sum
of squares, corrected once by its own residual. -/
def hypotenuse (x y : Float) : Float :=
  let h := Float.sqrt (x * x + y * y)
  let residual :=
    if h ≤ 2.0 * y then
      let excess := h - y
      x * (2.0 * excess - x) + (excess - 2.0 * (x - y)) * excess
    else
      let excess := h - x
      2.0 * excess * (x - 2.0 * y) + ((4.0 * excess - y) * y + excess * excess)
  h - residual / (2.0 * h)

/-- A power of two that brings the squares of very long and very short sides into range. -/
def scaleUp : Float := Float.scaleB 1.0 600

/-- A side shorter than this part of the other does not change the length. -/
def negligible : Float := Float.scaleB 1.0 (-54)

/-- The length of the vector `(x, y)`. -/
def hypot (x y : Float) : Float :=
  if x.isInf || y.isInf then 1.0 / 0.0
  else if x.isNaN || y.isNaN then x + y
  else
    let x := x.abs
    let y := y.abs
    let long := if x < y then y else x
    let short := if x < y then x else y
    if short ≤ long * negligible then long + short
    else if Float.scaleB 1.0 511 < long then
      hypotenuse (long / scaleUp) (short / scaleUp) * scaleUp
    else if short < Float.scaleB 1.0 (-459) then
      hypotenuse (long * scaleUp) (short * scaleUp) / scaleUp
    else hypotenuse long short

end Binary64

instance : Arith Float where
  min := Binary64.minimum
  max := Binary64.maximum
  ofNat := Float.ofNat
  decLt := fun _ _ => inferInstance
  decLe := fun _ _ => inferInstance
  floor := Binary64.floor
  ceil := Binary64.ceil
  round := Binary64.round
  truncate := Binary64.truncate

instance : Scalar Float where
  pi := 3.141592653589793
  sin := Float.sin
  cos := Float.cos
  sqrt := Float.sqrt
  hypot := Binary64.hypot
  narrow := fun x => x.toFloat32.toFloat
  isFinite := Float.isFinite
  text := Decimal.shortest
  fixed := Decimal.fixed

end TurtleCurves
