import TurtleCurves.Text.Blank

namespace TurtleCurves.Text

/-!
# Quoted texts

* `quoted` — a text between double quotes as it is shown in messages: what cannot be seen is
  written as an escape;
* `jsonQuoted` — a text as a JSON string.
-/

/-- The hexadecimal digits of a number. -/
def hexNumber (n : Nat) : List Char := Nat.toDigits 16 n

/-! ### In messages -/

/-- The character has a shape of its own. -/
def isVisible (c : Char) : Bool :=
  let n := c.toNat
  c = ' ' ||
    !(n < 0x20 || (0x7f ≤ n && n < 0xa0) || isBlank c || n = 0xad || (0x300 ≤ n && n < 0x370) ||
      (0x200b ≤ n && n ≤ 0x200f) || (0x2028 ≤ n && n ≤ 0x202e) || (0x2060 ≤ n && n ≤ 0x206f) ||
      (0xe000 ≤ n && n ≤ 0xf8ff) || n = 0xfeff || 0xe0000 ≤ n)

/-- A character between quotes. -/
def quotedChar (c : Char) : List Char :=
  if c = '"' then ['\\', '"']
  else if c = '\\' then ['\\', '\\']
  else if c = '\n' then ['\\', 'n']
  else if c = '\r' then ['\\', 'r']
  else if c = '\t' then ['\\', 't']
  else if c.toNat = 0 then ['\\', '0']
  else if isVisible c then [c]
  else "\\u\x7b".toList ++ hexNumber c.toNat ++ ['\x7d']

/-- A text between double quotes. -/
def quoted (cs : List Char) : List Char := '"' :: cs.flatMap quotedChar ++ ['"']

/-! ### In JSON -/

/-- A character of a JSON string. -/
def jsonChar (c : Char) : List Char :=
  let n := c.toNat
  if c = '"' then ['\\', '"']
  else if c = '\\' then ['\\', '\\']
  else if c = '\n' then ['\\', 'n']
  else if c = '\r' then ['\\', 'r']
  else if c = '\t' then ['\\', 't']
  else if n = 8 then ['\\', 'b']
  else if n = 12 then ['\\', 'f']
  else if n < 0x20 then
    "\\u00".toList ++ (if n < 0x10 then '0' :: hexNumber n else hexNumber n)
  else [c]

/-- A JSON string. -/
def jsonQuoted (cs : List Char) : List Char := '"' :: cs.flatMap jsonChar ++ ['"']

end TurtleCurves.Text
