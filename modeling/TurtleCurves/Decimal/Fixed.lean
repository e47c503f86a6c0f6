import TurtleCurves.Decimal.Dyadic
import TurtleCurves.Decimal.Rounding

namespace TurtleCurves.Decimal

/-!
# Fixed notation

The exact binary value is rounded once, a half going to the even neighbour.

* `fixed places x` — `places` digits after the point;
* `decade` — the power of ten in front of which a number has its first digit.
-/

/-- `num / den` with `places` digits after the point. -/
def fixedRatio (places num den : Nat) : List Char :=
  let all := padLeft (places + 1) (digits (roundHalfEven (num * Nat.pow 10 places) den))
  let whole := all.take (all.length - places)
  if places = 0 then whole else whole ++ '.' :: all.drop (all.length - places)

/-- The largest `k` with `10 ^ k ≤ num / den`, for a positive fraction. -/
def decade (num den : Nat) : Int :=
  if den ≤ num then Int.ofNat ((digits (num / den)).length - 1)
  else
    let up := (digits ((den + num - 1) / num)).length
    -- `10 ^ (up - 1) ≤ ⌈den / num⌉ < 10 ^ up`
    if den ≤ num * Nat.pow 10 (up - 1) then -Int.ofNat (up - 1) else -Int.ofNat up

/-- A minus sign before the digits of a negative number. -/
def signed (negative : Bool) (cs : List Char) : String :=
  String.ofList (if negative then '-' :: cs else cs)

/-- A double with `places` digits after the point. -/
def fixed (places : Nat) (x : Float) : String :=
  match Reading.ofFloat x with
  | .nan => "NaN"
  | .infinite negative => signed negative ['i', 'n', 'f']
  | .finite d => let (num, den) := d.ratio; signed d.negative (fixedRatio places num den)

example : fixed 2 0.125 = "0.12" := by decide +kernel
example : fixed 2 (-0.375) = "-0.38" := by decide +kernel

end TurtleCurves.Decimal
