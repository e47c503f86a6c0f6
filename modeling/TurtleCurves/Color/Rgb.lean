import TurtleCurves.Scalar
import TurtleCurves.Text.Blank
import TurtleCurves.Text.Hexadecimal

namespace TurtleCurves

/-!
# Colours

* `Rgb` — a colour of three bytes;
* `Rgb.hex`, `Rgb.ofHex?` — its text `#rrggbb`, written in lower case and read in either;
* `Rgb.blend` — the linear mixture of two colours.
-/

/-- A colour of three bytes. -/
structure Rgb where
  red : UInt8
  green : UInt8
  blue : UInt8
  deriving DecidableEq, Repr, Inhabited

namespace Rgb

def black : Rgb := ⟨0, 0, 0⟩

def white : Rgb := ⟨255, 255, 255⟩

/-! ### Hexadecimal text -/

/-- The hexadecimal digit of a number below sixteen. -/
def hexDigit (n : Nat) : Char := (Nat.digitChar n)

/-- The two digits of a byte. -/
def hexByte (b : UInt8) : List Char := [hexDigit (b.toNat / 16), hexDigit (b.toNat % 16)]

/-- The six digits of a colour. -/
def hexDigits (c : Rgb) : List Char := hexByte c.red ++ hexByte c.green ++ hexByte c.blue

/-- The text `#rrggbb`. -/
def hex (c : Rgb) : String := String.ofList ('#' :: c.hexDigits)

/-- The byte of two digits. -/
def byteOfHex? (high low : Char) : Option UInt8 := do
  let h ← Text.hexValue? high
  let l ← Text.hexValue? low
  return UInt8.ofNat (16 * h + l)

/-- The colour of exactly six digits. -/
def ofHexDigits? : List Char → Option Rgb
  | [a, b, c, d, e, f] => do
    let red ← byteOfHex? a b
    let green ← byteOfHex? c d
    let blue ← byteOfHex? e f
    return ⟨red, green, blue⟩
  | _ => none

/-- The colour of a text: white space around it and any number of `#` in front are dropped,
and six digits have to remain. -/
def ofHex? (text : List Char) : Option Rgb :=
  ofHexDigits? ((Text.trim text).dropWhile (· == '#'))

/-! ### Mixing -/

variable {α : Type} [Arith α]

/-- A channel as a scalar. -/
def level (b : UInt8) : α := Arith.ofNat b.toNat

/-- The channel nearest to a scalar. -/
def channel (x : α) : UInt8 := UInt8.ofNat (min 255 (Arith.truncateNat (Arith.round x)))

/-- The linear mixture of two channels. -/
def blendChannel (a b : UInt8) (t : α) : UInt8 :=
  channel (level a + (level b - level a) * t)

/-- The linear mixture: the first colour at `t ≤ 0`, the second at `1 ≤ t`. -/
def blend (c d : Rgb) (t : α) : Rgb :=
  let t := Arith.clamp 0 1 t
  ⟨blendChannel c.red d.red t, blendChannel c.green d.green t, blendChannel c.blue d.blue t⟩

end Rgb

end TurtleCurves
