import TurtleCurves.Decimal.Numeral
import TurtleCurves.Text.Hexadecimal

namespace TurtleCurves

/-!
# Value trees

What a settings document holds, before anything is known about its meaning.

* `Value` — the tree; a scalar that stands in a document without quotes is `bare`, because its
  type depends on the field it fills;
* `Bare.number?`, `Bare.integer?`, `Bare.real?` — the readings of a bare scalar;
* `Value.typed?` — every bare scalar of a tree read by its looks: as nothing, a truth value, an
  integer, a real number, or else a text;
* `Value.text?`, `Value.natural?`, `Value.real?`, `Value.items?`, `Value.fields?` — a value as
  what a field asks for.
-/

/-- A tree of values. -/
inductive Value (α : Type) where
  | null
  | boolean (b : Bool)
  | integer (n : Int)
  | real (x : α)
  | text (s : List Char)
  | list (items : List (Value α))
  | map (entries : List (Value α × Value α))
  /-- A scalar as it stands in a document without quotes. -/
  | bare (written : List Char)

/-! ### Bare scalars -/

namespace Bare

/-- The value of a digit in a base up to sixteen. -/
def digitValue? (base : Nat) (c : Char) : Option Nat := (Text.hexValue? c).filter (· < base)

/-- The value of digits in a base; there has to be one. -/
def digitsValue? (base : Nat) (cs : List Char) : Option Nat :=
  if cs.isEmpty then none
  else cs.foldlM (fun n c => (digitValue? base c).map (base * n + ·)) 0

/-- More than one decimal digit with a zero in front, behind at most one sign: the look of a
number that is none. -/
def isPadded (cs : List Char) : Bool :=
  match (Decimal.takeSign cs).2 with
  | '0' :: c :: rest => (c :: rest).all Char.isDigit
  | _ => false

/-- A natural number in hexadecimal, octal, binary or decimal digits. -/
def magnitude? : List Char → Option Nat
  | '0' :: 'x' :: rest => digitsValue? 16 rest
  | '0' :: 'o' :: rest => digitsValue? 8 rest
  | '0' :: 'b' :: rest => digitsValue? 2 rest
  | cs => if isPadded cs then none else digitsValue? 10 cs

/-- A natural number, also with a plus in front. -/
def natural? : List Char → Option Nat
  | '+' :: rest => magnitude? rest
  | cs => magnitude? cs

/-- An integer. -/
def integer? : List Char → Option Int
  | '-' :: rest => (magnitude? rest).map fun n => -Int.ofNat n
  | cs => (natural? cs).map Int.ofNat

/-- The text is one of the three spellings of a word: small, capitalised, large. -/
def isSpelling (cs : List Char) (small capitalised large : String) : Bool :=
  cs == small.toList || cs == capitalised.toList || cs == large.toList

variable {α : Type} [Scalar α]

/-- A real number: infinities and no-numbers have spellings of their own. -/
def real? (cs : List Char) : Option α :=
  let unsigned := match cs with
    | '+' :: rest => rest
    | _ => cs
  if isSpelling unsigned ".inf" ".Inf" ".INF" then some (1 / 0)
  else if isSpelling cs "-.inf" "-.Inf" "-.INF" then some (-1 / 0)
  else if isSpelling cs ".nan" ".NaN" ".NAN" then some (0 / 0)
  else (Decimal.Numeral.ofText? cs).bind Decimal.Numeral.value?

/-- An integer has room in so many bits, one of them for its sign if it is negative. -/
def fits (bits : Nat) (n : Int) : Bool :=
  -Int.ofNat (Nat.pow 2 (bits - 1)) ≤ n && n < Int.ofNat (Nat.pow 2 bits)

/-- A bare scalar read by its looks.  An integer that does not fit into 64 bits has no
reading. -/
def typed? (cs : List Char) : Option (Value α) :=
  if cs = [] ∨ cs = ['~'] ∨ isSpelling cs "null" "Null" "NULL" then some .null
  else if isSpelling cs "true" "True" "TRUE" then some (.boolean true)
  else if isSpelling cs "false" "False" "FALSE" then some (.boolean false)
  else match integer? cs with
    | some n =>
      if fits 64 n then some (.integer n)
      else if fits 128 n then none
      else some (((real? cs).map .real).getD (.text cs))
    | none =>
      if isPadded cs then some (.text cs) else some (((real? cs).map .real).getD (.text cs))

end Bare

/-! ### Trees read by their looks -/

namespace Value

variable {α : Type} [Scalar α]

mutual

/-- The tree with every bare scalar read by its looks, if all of them have a reading. -/
def typed? : Value α → Option (Value α)
  | .list items => (typedItems? items).map .list
  | .map entries => (typedEntries? entries).map .map
  | .bare written => Bare.typed? written
  | v => some v

/-- The same for every item of a list. -/
def typedItems? : List (Value α) → Option (List (Value α))
  | [] => some []
  | v :: rest => do return (← v.typed?) :: (← typedItems? rest)

/-- The same for keys and values of a map. -/
def typedEntries? : List (Value α × Value α) → Option (List (Value α × Value α))
  | [] => some []
  | (k, v) :: rest => do return (← k.typed?, ← v.typed?) :: (← typedEntries? rest)

end

/-! ### Values as what a field asks for -/

/-- A text; a bare scalar stands for itself. -/
def text? : Value α → Option (List Char)
  | .text s => some s
  | .bare s => some s
  | _ => none

/-- A natural number below a limit. -/
def natural? (limit : Nat) : Value α → Option Nat
  | .integer n => if 0 ≤ n ∧ n < limit then some n.toNat else none
  | .bare s => (Bare.natural? s).filter (· < limit)
  | _ => none

/-- The scalar of an integer. -/
def ofInt (n : Int) : α := if n < 0 then -Arith.ofNat n.natAbs else Arith.ofNat n.natAbs

/-- A real number; an integer is one. -/
def real? : Value α → Option α
  | .real x => some x
  | .integer n => some (ofInt n)
  | .bare s => Bare.real? s
  | _ => none

/-- The items of a list; nothing at all stands for an empty one. -/
def items? : Value α → Option (List (Value α))
  | .list items => some items
  | .bare [] => some []
  | _ => none

/-- The entries of a map by the names that are its keys; nothing at all stands for an empty
map. -/
def fields? : Value α → Option (List (List Char × Value α))
  | .map entries => entries.mapM fun (k, v) => k.text?.map (·, v)
  | .bare [] => some []
  | _ => none

end Value

/-! ### Fields -/

namespace Fields

variable {α β : Type}

/-- The value of a name that may be there once. -/
def find? (fields : List (List Char × Value α)) (name : String) : Option (Option (Value α)) :=
  match fields.filter fun f => f.1 == name.toList with
  | [] => some none
  | [f] => some (some f.2)
  | _ => none

/-- A field that has to be there. -/
def require? (fields : List (List Char × Value α)) (name : String) (read : Value α → Option β) :
    Option β := do
  (← find? fields name).bind read

/-- A field that may be left out. -/
def optional? (fields : List (List Char × Value α)) (name : String) (absent : β)
    (read : Value α → Option β) : Option β := do
  match ← find? fields name with
  | none => return absent
  | some v => read v

end Fields

end TurtleCurves
