namespace TurtleCurves.Decimal

/-!
# Rounded quotients and digit strings

* `roundHalfEven` — a quotient of naturals to the nearest natural, halves to even;
* `padLeft` — a digit string filled up with zeros;
* `grouped` — a count with a comma before every third digit from the end.
-/

/-! ### Quotients -/

/-- `num / den` to the nearest natural, a half going to the even neighbour. -/
def roundHalfEven (num den : Nat) : Nat :=
  let q := num / den
  let twice := 2 * (num % den)
  if twice < den then q
  else if den < twice then q + 1
  else if q % 2 = 0 then q else q + 1

/-- A multiple of the divisor is divided exactly. -/
theorem roundHalfEven_mul (q : Nat) {den : Nat} (h : 0 < den) :
    roundHalfEven (q * den) den = q := by
  simp [roundHalfEven, Nat.mul_div_cancel q h, h]

/-- The rounded quotient is within half a unit of the exact one. -/
theorem roundHalfEven_near (num : Nat) {den : Nat} (h : 0 < den) :
    2 * num ≤ (2 * roundHalfEven num den + 1) * den ∧
      2 * (roundHalfEven num den * den) ≤ 2 * num + den := by
  have hdiv := Nat.div_add_mod num den
  have hmod := Nat.mod_lt num h
  have hq : ∀ q : Nat, (q + 1) * den = q * den + den := fun q => Nat.succ_mul q den
  have hcomm : den * (num / den) = num / den * den := Nat.mul_comm ..
  have hexp : ∀ q : Nat, (2 * q + 1) * den = 2 * (q * den) + den := by
    intro q; rw [Nat.add_mul, Nat.one_mul, Nat.mul_assoc]
  unfold roundHalfEven
  simp only
  split
  -- Below the half the quotient stays, above it the next one is taken, and at the half either.
  · rw [hexp]; omega
  · split
    · rw [hexp, hq]; omega
    · split
      · rw [hexp]; omega
      · rw [hexp, hq]; omega

/-! ### Digits -/

/-- `digits` filled up with leading zeros to at least `width` characters. -/
def padLeft (width : Nat) (digits : List Char) : List Char :=
  List.replicate (width - digits.length) '0' ++ digits

/-- The digits of a natural number, most significant first. -/
def digits (n : Nat) : List Char := Nat.toDigits 10 n

/-- The value of a string of decimal digits; `none` if it is empty or holds another character. -/
def ofDigits? (cs : List Char) : Option Nat :=
  if cs.isEmpty || !cs.all Char.isDigit then none
  else some (cs.foldl (fun n c => 10 * n + (c.toNat - '0'.toNat)) 0)

/-- Commas before every third digit from the end. -/
def groupDigits : List Char → List Char
  | [] => []
  | [c] => [c]
  | c :: d :: rest =>
    if (rest.length + 1) % 3 = 0 then c :: ',' :: groupDigits (d :: rest)
    else c :: groupDigits (d :: rest)

/-- A count as it is read aloud: `1234567` is `1,234,567`. -/
def grouped (n : Nat) : String := String.ofList (groupDigits (digits n))

end TurtleCurves.Decimal
