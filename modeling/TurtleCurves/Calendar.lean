import TurtleCurves.Decimal.Rounding

namespace TurtleCurves

/-!
# Calendar

A moment of the world's clock as a date and a time of day.  Years are counted from March on, so
that the day that is sometimes added comes last; a cycle of the calendar has 400 years.

* `Date`, `Date.ofDay` — the date of a day, counted from the first of January 1970;
* `Clock`, `Clock.ofSeconds` — date and time of a second;
* `Clock.text`, `Clock.stamp` — the forms in texts and in file names.
-/

/-- A date. -/
structure Date where
  year : Nat
  month : Nat
  day : Nat
  deriving DecidableEq, Repr

/-- The days from the first of March in the year 0 to the first of January 1970. -/
def Date.epoch : Nat := 719468

/-- The days of 400 years. -/
def Date.cycle : Nat := 146097

/-- The date of a day, counted from the first of January 1970. -/
def Date.ofDay (n : Nat) : Date :=
  let days := n + epoch
  let inCycle := days % cycle
  let yearInCycle := (inCycle - inCycle / 1460 + inCycle / 36524 - inCycle / 146096) / 365
  let inYear := inCycle - (365 * yearInCycle + yearInCycle / 4 - yearInCycle / 100)
  let fromMarch := (5 * inYear + 2) / 153
  let month := if fromMarch < 10 then fromMarch + 3 else fromMarch - 9
  { year := yearInCycle + days / cycle * 400 + (if month ≤ 2 then 1 else 0)
    month := month
    day := inYear - (153 * fromMarch + 2) / 5 + 1 }

/-- Date and time of day. -/
structure Clock where
  date : Date
  hour : Nat
  minute : Nat
  second : Nat
  deriving DecidableEq, Repr

namespace Clock

/-- Date and time of a second, counted from the beginning of 1970. -/
def ofSeconds (n : Nat) : Clock :=
  ⟨Date.ofDay (n / 86400), n / 3600 % 24, n / 60 % 60, n % 60⟩

/-- A number with at least so many digits. -/
def padded (places n : Nat) : String :=
  String.ofList (Decimal.padLeft places (Decimal.digits n))

/-- The form in texts. -/
def text (c : Clock) : String :=
  padded 4 c.date.year ++ "-" ++ padded 2 c.date.month ++ "-" ++ padded 2 c.date.day ++ "T" ++
    padded 2 c.hour ++ ":" ++ padded 2 c.minute ++ ":" ++ padded 2 c.second ++ "+00:00"

/-- The form in file names. -/
def stamp (c : Clock) : String :=
  padded 4 c.date.year ++ padded 2 c.date.month ++ padded 2 c.date.day ++ "_" ++
    padded 2 c.hour ++ padded 2 c.minute ++ padded 2 c.second

end Clock

example : Date.ofDay 0 = ⟨1970, 1, 1⟩ := by decide
example : Date.ofDay 11016 = ⟨2000, 2, 29⟩ := by decide
example : (Clock.ofSeconds 951867661).text = "2000-02-29T23:41:01+00:00" := by decide +kernel

end TurtleCurves
