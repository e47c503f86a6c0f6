namespace TurtleCurves.Decimal

/-!
# Exact values of binary floating point numbers

* `Dyadic` — a sign, a mantissa and a power of two;
* `Reading` — what the 64 bits of a double stand for;
* `Reading.ofFloat` — the reading of a double.
-/

/-- The number `± mantissa · 2 ^ exponent`.  `boundary` marks a mantissa whose lower
neighbour is only half as far away as the upper one. -/
structure Dyadic where
  negative : Bool
  mantissa : Nat
  exponent : Int
  boundary : Bool
  deriving DecidableEq, Repr

/-- What the bits of a double stand for. -/
inductive Reading where
  /-- No number. -/
  | nan
  /-- An infinity. -/
  | infinite (negative : Bool)
  /-- A number. -/
  | finite (value : Dyadic)
  deriving DecidableEq, Repr

/-- The reading of 64 bits: sign, eleven bits of exponent, fifty-two of fraction. -/
def Reading.ofBits (bits : Nat) : Reading :=
  let negative := bits / Nat.pow 2 63 % 2 = 1
  let field := bits / Nat.pow 2 52 % Nat.pow 2 11
  let fraction := bits % Nat.pow 2 52
  if field = 2047 then
    if fraction = 0 then .infinite negative else .nan
  else if field = 0 then .finite ⟨negative, fraction, -1074, false⟩
  else .finite ⟨negative, Nat.pow 2 52 + fraction, Int.ofNat field - 1075,
    fraction = 0 && 1 < field⟩

/-- The reading of a double. -/
def Reading.ofFloat (x : Float) : Reading := Reading.ofBits x.toBits.toNat

/-- The magnitude as a fraction `num / den` with a power of two below. -/
def Dyadic.ratio (d : Dyadic) : Nat × Nat :=
  if 0 ≤ d.exponent then (d.mantissa * Nat.pow 2 d.exponent.toNat, 1)
  else (d.mantissa, Nat.pow 2 (-d.exponent).toNat)

end TurtleCurves.Decimal
