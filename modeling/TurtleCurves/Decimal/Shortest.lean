import TurtleCurves.Decimal.Fixed

namespace TurtleCurves.Decimal

/-!
# Shortest decimal text

The text of a double has the fewest digits that still read back as that double; of two such
decimals the nearer one is taken, and the upper one when they are equally near.  Digits are
written positionally, without an exponent, and a whole number has no point.

* `Window` — the decimals that read back as one double;
* `shortestDigits` — the digits and their power of ten;
* `shortest` — the text.
-/

/-- The reals that read back as one double, over a common denominator: the ends belong to the
window exactly when `closed`. -/
structure Window where
  low : Nat
  value : Nat
  high : Nat
  den : Nat
  closed : Bool

/-- The window of a double: half way to either neighbour, and the ends count exactly when the
mantissa is even. -/
def Dyadic.window (d : Dyadic) : Window :=
  let m := d.mantissa
  let low := if d.boundary then 4 * m - 1 else 4 * m - 2
  let (up, den) :=
    if 2 ≤ d.exponent then (Nat.pow 2 (d.exponent - 2).toNat, 1)
    else (1, Nat.pow 2 (2 - d.exponent).toNat)
  ⟨low * up, 4 * m * up, (4 * m + 2) * up, den, m % 2 = 0⟩

/-- `n / scale` reads back. -/
def Window.holds (w : Window) (n scale : Nat) : Bool :=
  let x := n * w.den
  let low := w.low * scale
  let high := w.high * scale
  if w.closed then low ≤ x && x ≤ high else low < x && x < high

/-- The multiple of `unit / scale` that is in the window and nearest to its value, if one is:
only the two neighbours of the value need to be looked at. -/
def Window.neighbour? (w : Window) (unit scale : Nat) : Option Nat :=
  let below := w.value * scale / (w.den * unit)
  let above := below + 1
  match w.holds (below * unit) scale, w.holds (above * unit) scale with
  | true, true =>
    let toBelow := w.value * scale - below * unit * w.den
    let toAbove := above * unit * w.den - w.value * scale
    some (if toBelow < toAbove then below else above)
  | true, false => some below
  | false, true => some above
  | false, false => none

/-- Tries one digit more while no decimal of the present length reads back.  The upper neighbour
may be the next power of ten, which has one digit. -/
def Window.search (w : Window) (top : Int) : Nat → Nat → Option (Nat × Int)
  | 0, _ => none
  | fuel + 1, count =>
    let power := top - Int.ofNat count + 1
    let (unit, scale) :=
      if 0 ≤ power then (Nat.pow 10 power.toNat, 1) else (1, Nat.pow 10 (-power).toNat)
    match w.neighbour? unit scale with
    | some n => some (if n = Nat.pow 10 count then (1, power + count) else (n, power))
    | none => w.search top fuel (count + 1)

/-- The fewest digits that read back, as a natural number and a power of ten; seventeen are
always enough. -/
def Dyadic.shortestDigits (d : Dyadic) : Nat × Int :=
  let (num, den) := d.ratio
  if num = 0 then (0, 0) else (d.window.search (decade num den) 17 1).getD (0, 0)

/-- `n · 10 ^ power` written positionally; digits that are zero at the end of the fraction do
not occur because `n` is as short as possible. -/
def positional (n : Nat) (power : Int) : List Char :=
  if 0 ≤ power then digits (n * Nat.pow 10 power.toNat)
  else
    let places := (-power).toNat
    let all := padLeft (places + 1) (digits n)
    all.take (all.length - places) ++ '.' :: all.drop (all.length - places)

/-- The shortest text of a double. -/
def shortest (x : Float) : String :=
  match Reading.ofFloat x with
  | .nan => "NaN"
  | .infinite negative => signed negative ['i', 'n', 'f']
  | .finite d => let (n, power) := d.shortestDigits; signed d.negative (positional n power)

example : shortest 25.7 = "25.7" := by decide +kernel
example : shortest (-0.0) = "-0" := by decide +kernel
example : shortest 1e-7 = "0.0000001" := by decide +kernel
example : shortest 1e21 = "1000000000000000000000" := by decide +kernel

end TurtleCurves.Decimal
