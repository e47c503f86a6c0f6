import TurtleCurves.Document.Cursor
import TurtleCurves.Text.Hexadecimal

namespace TurtleCurves.Document

/-!
# Scalars of a document

A scalar may go over several lines; blanks around a line end are dropped, a single line end is
read as one space, and of several the first is dropped.

* `Folding` — a scalar as far as it is read;
* `plain?` — a scalar without quotes;
* `quoted?` — a scalar between quotes of either kind.
-/

/-! ### Folding -/

/-- What stands between the words of a scalar, as far as it is read. -/
inductive Gap where
  /-- Blanks, last one first. -/
  | blanks (seen : List Char)
  /-- A line end, what it is read as if it stays alone, and how many more there are. -/
  | lines (alone : List Char) (more : Nat)

/-- How a gap is read; last character first. -/
def Gap.read : Gap → List Char
  | .blanks seen => seen
  | .lines alone 0 => alone
  | .lines _ (more + 1) => List.replicate (more + 1) '\n'

/-- The gap with one more blank. -/
def Gap.blank (c : Char) : Gap → Gap
  | .blanks seen => .blanks (c :: seen)
  | gap => gap

/-- The gap with one more line end. -/
def Gap.newline : Gap → Gap
  | .blanks _ => .lines [' '] 0
  | .lines alone more => .lines alone (more + 1)

/-- A scalar as far as it is read. -/
structure Folding where
  /-- The characters before the gap, last one first. -/
  written : List Char
  gap : Gap
  /-- A line end lies between two of its characters. -/
  isLong : Bool

namespace Folding

/-- Nothing is read yet. -/
def empty : Folding := ⟨[], .blanks [], false⟩

/-- The gap is over. -/
def join (f : Folding) : Folding :=
  let isLong := match f.gap with
    | .blanks _ => f.isLong
    | .lines _ _ => true
  ⟨f.gap.read ++ f.written, .blanks [], isLong⟩

/-- One more character of the scalar. -/
def put (f : Folding) (c : Char) : Folding :=
  let f := f.join
  { f with written := c :: f.written }

/-- One more blank or line end. -/
def space (f : Folding) (c : Char) : Folding :=
  { f with gap := if c = '\n' then f.gap.newline else f.gap.blank c }

/-- The text before the gap. -/
def text (f : Folding) : List Char := f.written.reverse

end Folding

/-- A scalar that was read. -/
structure Token where
  text : List Char
  /-- It begins and ends on one line. -/
  isShort : Bool
  /-- What follows it. -/
  after : Cursor

/-! ### Without quotes -/

/-- The marks between the entries of a flow collection. -/
def isFlowMark (c : Char) : Bool := ",[]\x7b\x7d".toList.contains c

/-- The characters that have a meaning of their own at the beginning of something. -/
def isMark (c : Char) : Bool := "-?:,[]\x7b\x7d#&*!|>'\"%@`".toList.contains c

/-- A scalar without quotes may begin here. -/
def opensPlain (flow : Bool) : List Char → Bool
  | [] => false
  | '-' :: rest => !isParted rest
  | c :: rest => !(isMark c || isSpace c) || (!flow && (c = '?' || c = ':') && !isParted rest)

/-- The scalar ends in front of this character. -/
def closesPlain (flow : Bool) (least : Nat) (gap : Gap) (column : Nat) (c : Char)
    (rest : List Char) : Bool :=
  match gap with
  | .lines _ _ => c = '#' || (!flow && column < least) || closes
  | .blanks seen => (c = '#' && !seen.isEmpty) || closes
where
  closes := (c = ':' && isParted rest) || (flow && isFlowMark c)

/-- A colon in front of a mark of a flow collection. -/
def isStrayColon (flow : Bool) (c : Char) (rest : List Char) : Bool :=
  flow && c = ':' && (rest.head?.any fun d => isFlowMark d || d = '?')

/-- The place of what follows a gap. -/
def Gap.place (column : Nat) : Gap → Option Nat
  | .blanks _ => none
  | .lines _ _ => some column

/-- A tabulator where a line has to be indented further. -/
def isStrayTab (least column : Nat) (gap : Gap) (c : Char) : Bool :=
  match gap with
  | .lines _ _ => c = '\t' && column < least
  | .blanks _ => false

/-- Reads on in a scalar without quotes; `column` counts on a line that has just begun. -/
def plainFrom? (flow : Bool) (least : Nat) (f : Folding) (column : Nat) :
    List Char → Option Token
  | [] => some ⟨f.text, !f.isLong, ⟨f.gap.place column, []⟩⟩
  | c :: rest =>
    if c = '\n' then plainFrom? flow least (f.space c) 0 rest
    else if isSpace c then
      if isStrayTab least column f.gap c then none
      else plainFrom? flow least (f.space c) (column + 1) rest
    else if closesPlain flow least f.gap column c rest then
      some ⟨f.text, !f.isLong, ⟨f.gap.place column, c :: rest⟩⟩
    else if isStrayColon flow c rest then none
    else plainFrom? flow least (f.put c) (column + 1) rest

/-- Reads a scalar without quotes; its further lines have to be indented to column `least`. -/
def plain? (flow : Bool) (least : Nat) (cs : List Char) : Option Token :=
  if opensPlain flow cs then plainFrom? flow least Folding.empty 0 cs else none

/-! ### Between quotes -/

/-- The character of a one-letter escape. -/
def escaped? (c : Char) : Option Char :=
  match c with
  | '0' => some '\x00'
  | 'a' => some '\x07'
  | 'b' => some '\x08'
  | 't' | '\t' => some '\t'
  | 'n' => some '\n'
  | 'v' => some '\x0b'
  | 'f' => some '\x0c'
  | 'r' => some '\r'
  | 'e' => some '\x1b'
  | ' ' | '"' | '/' | '\\' => some c
  | 'N' => some '\u0085'
  | '_' => some '\u00a0'
  | 'L' => some '\u2028'
  | 'P' => some '\u2029'
  | _ => none

/-- How many hexadecimal digits an escape asks for. -/
def escapeLength? (c : Char) : Option Nat :=
  match c with
  | 'x' => some 2
  | 'u' => some 4
  | 'U' => some 8
  | _ => none

/-- What was read last between quotes. -/
inductive QuoteState where
  | text
  /-- A single quote, which may be the last or the first of two. -/
  | quote
  | backslash
  /-- An escape that still asks for digits. -/
  | digits (left : Nat) (value : Nat)

/-- The character of a code point. -/
def charOf? (n : Nat) : Option Char :=
  if n.isValidChar then some (Char.ofNat n) else none

/-- A quoted scalar that ends here. -/
def closeQuote (f : Folding) (rest : List Char) : Token :=
  let f := f.join
  ⟨f.text, !f.isLong, ⟨none, rest⟩⟩

/-- Reads on between quotes; escapes have a meaning between double quotes. -/
def quotedFrom? (double : Bool) (f : Folding) : QuoteState → List Char → Option Token
  | .quote, [] => some (closeQuote f [])
  | _, [] => none
  | .text, c :: rest =>
    if c = '\n' ∨ isSpace c then quotedFrom? double (f.space c) .text rest
    else if double then
      if c = '"' then some (closeQuote f rest)
      else if c = '\\' then quotedFrom? double f .backslash rest
      else quotedFrom? double (f.put c) .text rest
    else if c = '\'' then quotedFrom? double f .quote rest
    else quotedFrom? double (f.put c) .text rest
  | .quote, c :: rest =>
    if c = '\'' then quotedFrom? double (f.put c) .text rest else some (closeQuote f (c :: rest))
  | .backslash, c :: rest =>
    if c = '\n' then quotedFrom? double { f.join with gap := .lines [] 0 } .text rest
    else match escaped? c with
      | some d => quotedFrom? double (f.put d) .text rest
      | none =>
        match escapeLength? c with
        | some n => quotedFrom? double f (.digits n 0) rest
        | none => none
  | .digits left value, c :: rest =>
    match Text.hexValue? c with
    | none => none
    | some d =>
      let value := 16 * value + d
      if 1 < left then quotedFrom? double f (.digits (left - 1) value) rest
      else match charOf? value with
        | some c => quotedFrom? double (f.put c) .text rest
        | none => none

/-- Reads a quoted scalar. -/
def quoted? : List Char → Option Token
  | '"' :: rest => quotedFrom? true Folding.empty .text rest
  | '\'' :: rest => quotedFrom? false Folding.empty .text rest
  | _ => none

end TurtleCurves.Document
