import TurtleCurves.Decimal.Rounding
import TurtleCurves.Scalar

namespace TurtleCurves.Decimal

/-!
# Decimal numerals

A numeral is a sign, digits with at most one point among them, and a power of ten behind an
`e`; at least one digit has to stand in front of the power.

* `Numeral`, `Numeral.ofText?` — the numeral of a text;
* `Numeral.value?` — its scalar, unless that is out of range.
-/

/-- The number `± mantissa · 10 ^ exponent`. -/
structure Numeral where
  negative : Bool
  mantissa : Nat
  exponent : Int
  deriving DecidableEq, Repr

/-- A sign in front of a text: whether it is a minus, and the text behind it. -/
def takeSign : List Char → Bool × List Char
  | '-' :: rest => (true, rest)
  | '+' :: rest => (false, rest)
  | cs => (false, cs)

/-- The power of ten at the end of a numeral. -/
def power? : List Char → Option Int
  | [] => some 0
  | c :: rest =>
    if c = 'e' ∨ c = 'E' then
      let (negative, ds) := takeSign rest
      (ofDigits? ds).map fun n => if negative then -Int.ofNat n else Int.ofNat n
    else none

namespace Numeral

/-- The numeral of a text. -/
def ofText? (cs : List Char) : Option Numeral := do
  let (negative, cs) := takeSign cs
  let whole := cs.takeWhile Char.isDigit
  let behind := cs.dropWhile Char.isDigit
  let (fraction, behind) := match behind with
    | '.' :: rest => (rest.takeWhile Char.isDigit, rest.dropWhile Char.isDigit)
    | _ => ([], behind)
  let mantissa ← ofDigits? (whole ++ fraction)
  let power ← power? behind
  return ⟨negative, mantissa, power - Int.ofNat fraction.length⟩

variable {α : Type} [Scalar α]

/-- The scalar of a mantissa and a power of ten.  Beyond `10 ^ 310` there is none, and what is
below `10 ^ -400` is taken for zero. -/
def magnitude? (mantissa : Nat) (exponent : Int) : Option α :=
  let size := exponent + Int.ofNat (digits mantissa).length
  if mantissa = 0 ∨ size < -400 then some 0
  else if 310 < size then none
  else
    let x : α := OfScientific.ofScientific mantissa (exponent < 0) exponent.natAbs
    if Scalar.isFinite x then some x else none

/-- The scalar of a numeral, unless it is out of range. -/
def value? (n : Numeral) : Option α :=
  (magnitude? n.mantissa n.exponent).map fun x => if n.negative then -x else x

end Numeral

example : Numeral.ofText? "-1.50e3".toList = some ⟨true, 150, 1⟩ := by decide
example : Numeral.ofText? ".5".toList = some ⟨false, 5, -1⟩ := by decide
example : Numeral.ofText? "1e".toList = none := by decide

end TurtleCurves.Decimal
