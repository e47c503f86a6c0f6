import TurtleCurves.Decimal.Shortest

namespace TurtleCurves.Decimal

/-!
# Compact decimal text

The fewest digits that read back, as in `shortest`; but a whole number shows its point, and very
large and very small numbers have an exponent.

* `compact` — the text.
-/

/-- The digits of `n` with a point before the last `places` of them. -/
def pointed (n places : Nat) : List Char :=
  let all := padLeft (places + 1) (digits n)
  all.take (all.length - places) ++ '.' :: all.drop (all.length - places)

/-- `n` with one digit before the point, if it has more than one. -/
def leading (n : Nat) : List Char :=
  match digits n with
  | [] => []
  | [d] => [d]
  | d :: rest => d :: '.' :: rest

/-- `n · 10 ^ power`: positional while the point lies among the first seventeen places or
behind at most five zeros. -/
def compactDigits (n : Nat) (power : Int) : List Char :=
  let point := power + Int.ofNat (digits n).length
  if 0 ≤ power ∧ point ≤ 16 then digits (n * Nat.pow 10 power.toNat) ++ ['.', '0']
  else if power < 0 ∧ -5 < point ∧ point ≤ 16 then pointed n (-power).toNat
  else leading n ++ 'e' :: (toString (point - 1)).toList

/-- The compact text of a double. -/
def compact (x : Float) : String :=
  match Reading.ofFloat x with
  | .nan => "NaN"
  | .infinite negative => signed negative ['i', 'n', 'f']
  | .finite d =>
    let (n, power) := d.shortestDigits
    signed d.negative (compactDigits n power)

example : compact 135 = "135.0" := by decide +kernel
example : compact (-0.0) = "-0.0" := by decide +kernel
example : compact 0.001234 = "0.001234" := by decide +kernel
example : compact 1e16 = "1e16" := by decide +kernel
example : compact 1.5e-7 = "1.5e-7" := by decide +kernel

end TurtleCurves.Decimal
