import Mathlib.Data.Nat.Cast.Order.Field
import TurtleCurves.Proofs.Decimal.Reading

namespace TurtleCurves.Decimal

/-!
# The shortest text determines the double

* `pow_decade_le` — the power of ten that the search starts from is not above the number;
* `Window.neighbour?_isSome` — a grid that is finer than the window has a point in it;
* `Dyadic.readsBack_shortestDigits` — the search ends, and its digits read back;
* `shortest_injective` — doubles with one text are equal;
* `shortest_plain` — the characters of such a text.
-/

/-! ### The first power of ten -/

/-- The power of ten found for a fraction is not above it. -/
theorem pow_decade_le {num den : Nat} (hnum : 0 < num) (hden : 0 < den) :
    (10 : ℚ) ^ decade num den ≤ (num : ℚ) / den := by
  have hden' : (0 : ℚ) < den := by exact_mod_cast hden
  have hnum' : (0 : ℚ) < num := by exact_mod_cast hnum
  -- `1 / 10 ^ k` is below the fraction as soon as the denominator is at most `num · 10 ^ k`.
  have hbelow : ∀ k : Nat, den ≤ num * 10 ^ k → (10 : ℚ) ^ (-(k : Int)) ≤ (num : ℚ) / den := by
    intro k hk
    have hk' : (den : ℚ) ≤ num * 10 ^ k := by exact_mod_cast hk
    rw [zpow_neg, zpow_natCast, inv_eq_one_div, div_le_div_iff₀ (by positivity) hden', one_mul]
    exact hk'
  unfold decade
  by_cases hle : den ≤ num
  · rw [if_pos hle]
    have hquot := pow_length_digits_le (Nat.div_pos hle hden)
    have hcast : ((10 ^ ((digits (num / den)).length - 1) : Nat) : ℚ) ≤
        ((num / den : Nat) : ℚ) := by
      exact_mod_cast hquot
    calc (10 : ℚ) ^ (Int.ofNat ((digits (num / den)).length - 1))
        = ((10 ^ ((digits (num / den)).length - 1) : Nat) : ℚ) := by
          rw [Int.ofNat_eq_natCast, zpow_natCast]
          push_cast
          rfl
      _ ≤ ((num / den : Nat) : ℚ) := hcast
      _ ≤ (num : ℚ) / den := Nat.cast_div_le
  · rw [if_neg hle]
    dsimp only
    split
    · next h => exact hbelow _ h
    · -- The other exponent is the number of digits of the inverse, rounded up.
      refine hbelow _ ?_
      have hup := lt_pow_length_digits ((den + num - 1) / num)
      have hceil := Nat.div_add_mod (den + num - 1) num
      have hmod := Nat.mod_lt (den + num - 1) hnum
      have hmul : num * ((den + num - 1) / num) ≤
          num * 10 ^ (digits ((den + num - 1) / num)).length := Nat.mul_le_mul_left num hup.le
      omega

/-! ### Neighbours on a grid -/

namespace Window

/-- The neighbour that is taken passes the test. -/
theorem holds_of_neighbour? {w : Window} {unit scale n : Nat}
    (h : w.neighbour? unit scale = some n) : w.holds (n * unit) scale = true := by
  unfold neighbour? at h
  dsimp only at h
  split at h
  -- Both neighbours read back; the nearer of them was taken.
  · next hbelow habove =>
    obtain rfl := Option.some.inj h
    split
    · exact hbelow
    · exact habove
  · next hbelow _ =>
    obtain rfl := Option.some.inj h
    exact hbelow
  · next _ habove =>
    obtain rfl := Option.some.inj h
    exact habove
  · cases h

/-- **A fine grid has a point in the window.** When the window is wider than the grid, one of the
two neighbours of its value passes the test. -/
theorem neighbour?_isSome {w : Window} {unit scale : Nat} (hunit : 0 < unit) (hscale : 0 < scale)
    (hden : 0 < w.den) (hlow : w.low < w.value) (hhigh : w.value < w.high)
    (hfine : w.low * scale + unit * w.den < w.high * scale) :
    (w.neighbour? unit scale).isSome = true := by
  have hlow' : w.low * scale < w.value * scale := Nat.mul_lt_mul_of_pos_right hlow hscale
  have hhigh' : w.value * scale < w.high * scale := Nat.mul_lt_mul_of_pos_right hhigh hscale
  have hdiv := Nat.div_add_mod (w.value * scale) (w.den * unit)
  have hmod := Nat.mod_lt (w.value * scale) (Nat.mul_pos hden hunit)
  -- The two neighbours over the common denominator, a grid step apart.
  have hbelow : w.value * scale / (w.den * unit) * unit * w.den =
      w.den * unit * (w.value * scale / (w.den * unit)) := by ring
  have habove : (w.value * scale / (w.den * unit) + 1) * unit * w.den =
      w.den * unit * (w.value * scale / (w.den * unit)) + w.den * unit := by ring
  have hstep : unit * w.den = w.den * unit := Nat.mul_comm _ _
  -- If both failed the test, a step of the grid would be as wide as the window.
  by_contra hnone
  rw [Bool.not_eq_true, Option.isSome_eq_false_iff, Option.isNone_iff_eq_none] at hnone
  unfold neighbour? at hnone
  dsimp only at hnone
  split at hnone
  · cases hnone
  · cases hnone
  · cases hnone
  · next hout hout' =>
    simp only [holds, hbelow, habove] at hout hout'
    split at hout
    · next hclosed =>
      rw [if_pos hclosed] at hout'
      simp only [Bool.and_eq_false_iff, decide_eq_false_iff_not] at hout hout'
      omega
    · next hopen =>
      rw [if_neg hopen] at hout'
      simp only [Bool.and_eq_false_iff, decide_eq_false_iff_not] at hout hout'
      omega

/-! ### The search -/

/-- One round of the search. -/
theorem search_succ (w : Window) (top : Int) (fuel count : Nat) :
    w.search top (fuel + 1) count =
      match w.neighbour? (powerFraction 10 (top - Int.ofNat count + 1)).1
          (powerFraction 10 (top - Int.ofNat count + 1)).2 with
      | some n =>
        some (if n = Nat.pow 10 count then (1, top - Int.ofNat count + 1 + count)
          else (n, top - Int.ofNat count + 1))
      | none => w.search top fuel (count + 1) := by
  rw [search]
  unfold powerFraction
  split
  next unit scale hpair =>
    rewrite [hpair]
    cases w.neighbour? unit scale with
    | none => rfl
    | some n => rfl

/-- The search ends when one of its grids has a point in the window. -/
theorem search_isSome {w : Window} {top : Int} {fuel count k : Nat} (hle : count ≤ k)
    (hlt : k < count + fuel)
    (hk : (w.neighbour? (powerFraction 10 (top - Int.ofNat k + 1)).1
      (powerFraction 10 (top - Int.ofNat k + 1)).2).isSome = true) :
    (w.search top fuel count).isSome = true := by
  induction fuel generalizing count with
  | zero => omega
  | succ fuel ih =>
    rw [search_succ]
    split
    · rfl
    · next hnone =>
      -- Not found with this many digits, so `k` is more than these.
      refine ih ?_ (by omega)
      rcases Nat.lt_or_eq_of_le hle with h | rfl
      · exact h
      · rw [hnone] at hk
        cases hk

end Window

namespace Dyadic

/-- A grid point as an amount. -/
theorem amount_eq_powerFraction (n : Nat) (power : Int) :
    ((n * (powerFraction 10 power).1 : Nat) : ℚ) / (powerFraction 10 power).2 = amount n power := by
  have hpow := powerFraction_eq 10 power
  push_cast at hpow ⊢
  rw [mul_div_assoc, hpow, amount]

/-- A power of ten is the same amount when it is written with one digit. -/
theorem amount_pow_ten (count : Nat) (power : Int) :
    amount (Nat.pow 10 count) power = amount 1 (power + count) := by
  have hpow : (10 : ℚ) ^ (power + count) = 10 ^ power * 10 ^ count := by
    rw [zpow_add₀ (by norm_num) power, zpow_natCast]
  rw [amount, amount, hpow, Nat.pow_eq]
  push_cast
  ring

/-- What the search finds reads back. -/
theorem readsBack_of_search (d : Dyadic) {top : Int} {fuel count n : Nat} {power : Int}
    (h : d.window.search top fuel count = some (n, power)) : d.ReadsBack (amount n power) := by
  induction fuel generalizing count with
  | zero => cases h
  | succ fuel ih =>
    rw [Window.search_succ] at h
    split at h
    · next m hm =>
      have hscale := (powerFraction_pos (b := 10) (by norm_num) (top - Int.ofNat count + 1)).2
      have hreads := (d.window_holds_iff hscale).mp (Window.holds_of_neighbour? hm)
      rw [amount_eq_powerFraction] at hreads
      have hpair := Option.some.inj h
      split at hpair
      · next hten =>
        -- The next power of ten is written with one digit.
        obtain ⟨rfl, rfl⟩ := Prod.mk.inj hpair
        rw [hten, amount_pow_ten] at hreads
        exact hreads
      · obtain ⟨rfl, rfl⟩ := Prod.mk.inj hpair
        exact hreads
    · exact ih h

/-- The magnitude of a dyadic number. -/
theorem ratio_eq (d : Dyadic) :
    d.ratio = (d.mantissa * (powerFraction 2 d.exponent).1, (powerFraction 2 d.exponent).2) := by
  unfold ratio powerFraction
  split
  · rfl
  · rw [Nat.mul_one]

/-- The magnitude as a rational number, in quarters of the last place. -/
theorem ratio_fraction (d : Dyadic) :
    (d.ratio.1 : ℚ) / d.ratio.2 = 4 * d.mantissa * d.quarter := by
  have hpow := powerFraction_eq 2 d.exponent
  have hfour : (2 : ℚ) ^ d.exponent = 4 * d.quarter := by
    have hsplit : d.exponent = 2 + (d.exponent - 2) := by ring
    rw [quarter, hsplit, zpow_add₀ (by norm_num)]
    norm_num
  rw [ratio_eq]
  push_cast at hpow ⊢
  rw [mul_div_assoc, hpow, hfour]
  ring

/-- Seventeen digits make a grid finer than the window. -/
theorem grid_lt_window {d : Dyadic} (hd : d.Canonical) (hpos : 0 < d.mantissa) {top : Int}
    (htop : (10 : ℚ) ^ top ≤ 4 * d.mantissa * d.quarter) :
    d.low * d.quarter + 10 ^ (top - 16) < d.high * d.quarter := by
  have hquarter := d.quarter_pos
  have hsplit : (10 : ℚ) ^ top = 10 ^ 16 * 10 ^ (top - 16) := by
    rw [show top = 16 + (top - 16) by ring, zpow_add₀ (by norm_num)]
    norm_num
  -- A window is at least three quarters wide, and a mantissa has at most fifty-three bits.
  have hwide : 4 * d.mantissa < 10 ^ 16 * (d.high - d.low) := by
    have hlt := hd.mantissa_lt
    unfold high low
    split
    · next hb =>
      have hmantissa := (hd.boundary.mp hb).1
      omega
    · omega
  have hle : d.low ≤ d.high := by
    unfold high low
    split <;> omega
  have hwide' : (4 : ℚ) * d.mantissa < 10 ^ 16 * (d.high - d.low) := by
    rw [← Nat.cast_sub hle]
    exact_mod_cast hwide
  have hscaled : 4 * d.mantissa * d.quarter < 10 ^ 16 * (d.high - d.low) * d.quarter :=
    mul_lt_mul_of_pos_right hwide' hquarter
  rw [hsplit] at htop
  nlinarith [htop, hscaled]

/-- The value lies inside its window. -/
theorem value_mem_window {d : Dyadic} (hpos : 0 < d.mantissa) :
    d.window.low < d.window.value ∧ d.window.value < d.window.high := by
  have hup := (powerFraction_pos (b := 2) (by norm_num) (d.exponent - 2)).1
  rw [window_eq]
  refine ⟨Nat.mul_lt_mul_of_pos_right ?_ hup, Nat.mul_lt_mul_of_pos_right ?_ hup⟩
  · unfold low
    split <;> omega
  · unfold high
    omega

/-- `grid_lt_window` over the whole numbers that the search computes with. -/
theorem fine_of_grid {d : Dyadic} {power : Int}
    (hgrid : d.low * d.quarter + 10 ^ power < d.high * d.quarter) :
    d.window.low * (powerFraction 10 power).2 + (powerFraction 10 power).1 * d.window.den <
      d.window.high * (powerFraction 10 power).2 := by
  have hscale := (powerFraction_pos (b := 10) (by norm_num) power).2
  have hpow := powerFraction_eq 10 power
  obtain ⟨hlow, _, hhigh⟩ := d.window_fractions
  push_cast at hpow
  rw [← hlow, ← hhigh, ← hpow] at hgrid
  have hscale' : (0 : ℚ) < (powerFraction 10 power).2 := by exact_mod_cast hscale
  have hden' : (0 : ℚ) < d.window.den := by exact_mod_cast d.window_den_pos
  rw [div_add_div _ _ hden'.ne' hscale'.ne', div_lt_div_iff₀ (by positivity) hden'] at hgrid
  -- One factor of the common denominator stands on both sides.
  have hcancel : ((d.window.low * (powerFraction 10 power).2 +
      (powerFraction 10 power).1 * d.window.den : Nat) : ℚ) <
        ((d.window.high * (powerFraction 10 power).2 : Nat) : ℚ) := by
    push_cast
    nlinarith [hgrid, hden']
  exact_mod_cast hcancel

/-- The search ends within seventeen digits, from any power of ten that is not above the number. -/
theorem search_window_isSome {d : Dyadic} (hd : d.Canonical) (hpos : 0 < d.mantissa) {top : Int}
    (htop : (10 : ℚ) ^ top ≤ 4 * d.mantissa * d.quarter) :
    (d.window.search top 17 1).isSome = true := by
  refine Window.search_isSome (k := 17) (by norm_num) (by norm_num) ?_
  have hexp : top - Int.ofNat 17 + 1 = top - 16 := by
    rw [Int.ofNat_eq_natCast]
    push_cast
    ring
  obtain ⟨hunit, hscale⟩ := powerFraction_pos (b := 10) (by norm_num) (top - 16)
  obtain ⟨hlow, hhigh⟩ := value_mem_window hpos
  rw [hexp]
  exact Window.neighbour?_isSome hunit hscale d.window_den_pos hlow hhigh
    (fine_of_grid (grid_lt_window hd hpos htop))

/-- **The digits read back.** The search ends within seventeen digits, and what it finds lies in
the window. -/
theorem readsBack_shortestDigits {d : Dyadic} (hd : d.Canonical) (hpos : 0 < d.mantissa) :
    d.ReadsBack (amount d.shortestDigits.1 d.shortestDigits.2) := by
  have hden : 0 < d.ratio.2 := by
    rw [ratio_eq]
    exact (powerFraction_pos (by norm_num) _).2
  have hnum : 0 < d.ratio.1 := by
    rw [ratio_eq]
    exact Nat.mul_pos hpos (powerFraction_pos (by norm_num) _).1
  have hdigits : d.shortestDigits =
      (d.window.search (decade d.ratio.1 d.ratio.2) 17 1).getD (0, 0) := by
    unfold shortestDigits
    dsimp only
    rw [if_neg (by omega)]
  have htop := pow_decade_le hnum hden
  rw [ratio_fraction] at htop
  -- Seventeen digits always suffice, so the search does not come back empty.
  obtain ⟨⟨n, power⟩, hsome⟩ := Option.isSome_iff_exists.mp (search_window_isSome hd hpos htop)
  rw [hdigits, hsome]
  exact d.readsBack_of_search hsome

end Dyadic

/-! ### The text -/

/-- The digits of a finite double as text, without its sign. -/
def Dyadic.unsigned (d : Dyadic) : List Char :=
  positional d.shortestDigits.1 d.shortestDigits.2

/-- A zero is written with the digit zero. -/
theorem Dyadic.shortestDigits_of_zero {d : Dyadic} (h : d.mantissa = 0) :
    d.shortestDigits = (0, 0) := by
  unfold shortestDigits
  rw [ratio_eq, h, Nat.zero_mul]
  rfl

/-- What is read back as a positive dyadic is positive. -/
theorem Dyadic.ReadsBack.pos {d : Dyadic} {x : ℚ} (hpos : 0 < d.mantissa) (h : d.ReadsBack x) :
    0 < x := by
  have hlow : 0 < d.low := by
    unfold low
    split <;> omega
  have hlow' : (0 : ℚ) < d.low := by exact_mod_cast hlow
  exact lt_of_lt_of_le (mul_pos hlow' d.quarter_pos) h.bounds.1

/-- Two canonical dyadics with the same digits are of the same magnitude. -/
theorem Dyadic.eq_of_unsigned_eq {d d' : Dyadic} (hd : d.Canonical) (hd' : d'.Canonical)
    (h : d.unsigned = d'.unsigned) : d.mantissa = d'.mantissa ∧ d.exponent = d'.exponent := by
  have hamount := amount_eq_of_positional_eq h
  -- A zero has the amount zero, and every other dyadic has a positive one.
  have hzero : ∀ {d : Dyadic}, d.mantissa = 0 →
      amount d.shortestDigits.1 d.shortestDigits.2 = 0 := by
    intro d hm
    rw [shortestDigits_of_zero hm]
    exact zero_mul _
  rcases Nat.eq_zero_or_pos d.mantissa with hm | hm <;>
    rcases Nat.eq_zero_or_pos d'.mantissa with hm' | hm'
  · refine ⟨hm.trans hm'.symm, ?_⟩
    have hleast := hd.normal
    have hleast' := hd'.normal
    omega
  · have hpos := (readsBack_shortestDigits hd' hm').pos hm'
    rw [← hamount, hzero hm] at hpos
    exact absurd hpos (lt_irrefl _)
  · have hpos := (readsBack_shortestDigits hd hm).pos hm
    rw [hamount, hzero hm'] at hpos
    exact absurd hpos (lt_irrefl _)
  · have hreads := readsBack_shortestDigits hd hm
    rw [hamount] at hreads
    exact eq_of_readsBack hd hd' hreads (readsBack_shortestDigits hd' hm')

namespace Reading

/-- The sign that is written. -/
def negative : Reading → Bool
  | .nan => false
  | .infinite negative => negative
  | .finite d => d.negative

/-- What is written after the sign. -/
def body : Reading → List Char
  | .nan => ['N', 'a', 'N']
  | .infinite _ => ['i', 'n', 'f']
  | .finite d => d.unsigned

theorem shortest_eq (x : Float) : shortest x = signed (ofFloat x).negative (ofFloat x).body := by
  unfold shortest
  split
  · next h => rw [h]; rfl
  · next h => rw [h]; rfl
  · next h => rw [h]; rfl

/-- The character after the sign: a digit for a number, and a letter otherwise. -/
theorem body_head (r : Reading) :
    ∃ c rest, r.body = c :: rest ∧ c ≠ '-' ∧ (c.isDigit = true ↔ ∃ d, r = .finite d) := by
  cases r with
  | nan => exact ⟨'N', _, rfl, by decide, by simp⟩
  | infinite negative => exact ⟨'i', _, rfl, by decide, by simp⟩
  | finite d =>
    obtain ⟨c, rest, htext, hdigit⟩ :=
      positional_head_isDigit d.shortestDigits.1 d.shortestDigits.2
    refine ⟨c, rest, htext, ?_, ⟨fun _ => ⟨d, rfl⟩, fun _ => hdigit⟩⟩
    rintro rfl
    exact absurd hdigit (by decide)

/-- Sign and body can be told apart. -/
theorem eq_of_signed_eq {r r' : Reading}
    (h : signed r.negative r.body = signed r'.negative r'.body) :
    r.negative = r'.negative ∧ r.body = r'.body := by
  -- No body starts with a minus, so the sign can be read off the first character.
  obtain ⟨c, rest, hbody, hc, _⟩ := r.body_head
  obtain ⟨c', rest', hbody', hc', _⟩ := r'.body_head
  have hlist := congrArg String.toList h
  unfold signed at hlist
  rw [String.toList_ofList, String.toList_ofList] at hlist
  cases hn : r.negative <;> cases hn' : r'.negative <;> rw [hn, hn'] at hlist
  · exact ⟨rfl, hlist⟩
  · have hhead : r.body = '-' :: r'.body := hlist
    rw [hbody] at hhead
    exact absurd (List.cons.inj hhead).1 hc
  · have hhead : '-' :: r.body = r'.body := hlist
    rw [hbody'] at hhead
    exact absurd (List.cons.inj hhead).1.symm hc'
  · exact ⟨rfl, (List.cons.inj hlist).2⟩

end Reading

/-- **The shortest text determines the double.** -/
theorem shortest_injective : Function.Injective shortest := by
  intro x y h
  rw [Reading.shortest_eq, Reading.shortest_eq] at h
  obtain ⟨hnegative, hbody⟩ := Reading.eq_of_signed_eq h
  obtain ⟨c, rest, hhead, _, hfinite⟩ := (Reading.ofFloat x).body_head
  obtain ⟨c', rest', hhead', _, hfinite'⟩ := (Reading.ofFloat y).body_head
  have hc : c = c' := by
    rw [hhead, hhead'] at hbody
    exact (List.cons.inj hbody).1
  subst hc
  -- The first character tells numbers from the rest; the rest are told apart as they stand.
  by_cases hdigit : c.isDigit = true
  · obtain ⟨d, hx⟩ := hfinite.mp hdigit
    obtain ⟨d', hy⟩ := hfinite'.mp hdigit
    rw [hx, hy] at hbody hnegative
    obtain ⟨hmantissa, hexponent⟩ := Dyadic.eq_of_unsigned_eq (Reading.canonical_of_ofBits hx)
      (Reading.canonical_of_ofBits hy) hbody
    exact Reading.toBits_injective (Reading.bits_eq_of_finite (Reading.toBits_lt x)
      (Reading.toBits_lt y) hx hy hnegative hmantissa hexponent)
  · apply Reading.ofFloat_injective
    cases hx : Reading.ofFloat x with
    | finite d => exact absurd (hfinite.mpr ⟨d, hx⟩) hdigit
    | nan =>
      cases hy : Reading.ofFloat y with
      | finite d => exact absurd (hfinite'.mpr ⟨d, hy⟩) hdigit
      | nan => rfl
      | infinite negative => rw [hx, hy] at hbody; cases hbody
    | infinite negative =>
      cases hy : Reading.ofFloat y with
      | finite d => exact absurd (hfinite'.mpr ⟨d, hy⟩) hdigit
      | nan => rw [hx, hy] at hbody; cases hbody
      | infinite negative' =>
        rw [hx, hy] at hnegative
        exact congrArg Reading.infinite hnegative

/-- The text of a double has digits, a point, a minus sign, and the letters of `NaN` and `inf`. -/
theorem shortest_plain {x : Float} {c : Char} (h : c ∈ (shortest x).toList) :
    c.isDigit = true ∨ c ∈ ['.', '-', 'N', 'a', 'i', 'n', 'f'] := by
  rw [Reading.shortest_eq, signed, String.toList_ofList] at h
  have hbody : c = '-' ∨ c ∈ (Reading.ofFloat x).body := by
    split at h
    · exact List.mem_cons.mp h
    · exact .inr h
  rcases hbody with rfl | hmem
  · exact .inr (by decide)
  -- Letters come from the two texts that stand for no number.
  cases hx : Reading.ofFloat x with
  | nan =>
    rw [hx] at hmem
    simp only [Reading.body, List.mem_cons, List.not_mem_nil, or_false] at hmem
    rcases hmem with rfl | rfl | rfl <;> exact .inr (by decide)
  | infinite negative =>
    rw [hx] at hmem
    simp only [Reading.body, List.mem_cons, List.not_mem_nil, or_false] at hmem
    rcases hmem with rfl | rfl | rfl <;> exact .inr (by decide)
  | finite d =>
    rw [hx] at hmem
    rcases positional_plain hmem with hdigit | rfl
    · exact .inl hdigit
    · exact .inr (by decide)

end TurtleCurves.Decimal
