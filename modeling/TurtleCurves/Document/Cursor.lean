namespace TurtleCurves.Document

/-!
# Reading positions

The reader of settings documents works on a text whose line ends are all line feeds.

* `plainText?` — such a text, if it holds nothing unprintable;
* `Cursor` — what is left to read, and whether a block may begin here;
* `skip` — the cursor moved over blanks, line ends and comments.
-/

/-! ### Characters -/

/-- The character may stand in a document. -/
def isPrintable (c : Char) : Bool :=
  let n := c.toNat
  c = '\t' || c = '\n' || c = '\r' || (0x20 ≤ n && n ≤ 0x7e) || n = 0x85 ||
    (0xa0 ≤ n && n ≤ 0xd7ff) || (0xe000 ≤ n && n ≤ 0xfffd) || 0x10000 ≤ n

/-- A space or a tabulator. -/
def isSpace (c : Char) : Bool := c = ' ' || c = '\t'

/-- What follows is a space, a line end or nothing. -/
def isParted : List Char → Bool
  | [] => true
  | c :: _ => isSpace c || c = '\n'

/-- Every line end as a line feed. -/
def unifyLines : List Char → List Char
  | [] => []
  | '\r' :: '\n' :: rest => '\n' :: unifyLines rest
  | c :: rest =>
    (if c = '\r' ∨ c = '\u0085' ∨ c = '\u2028' ∨ c = '\u2029' then '\n' else c) ::
      unifyLines rest

/-- The text as the reader takes it: printable, without a byte order mark. -/
def plainText? (cs : List Char) : Option (List Char) :=
  let cs := match cs with
    | '\ufeff' :: rest => rest
    | _ => cs
  if cs.all isPrintable then some (unifyLines cs) else none

/-! ### Cursors -/

/-- A position in a document. -/
structure Cursor where
  /-- The column, if only blanks stand before it on its line, so that a block may begin. -/
  place : Option Nat
  /-- What is left to read. -/
  rest : List Char

namespace Cursor

/-- Nothing is left. -/
def isEnd (c : Cursor) : Bool := c.rest.isEmpty

/-- The position begins a line's content left of a column. -/
def isLeftOf (c : Cursor) (column : Nat) : Bool :=
  match c.place with
  | some k => k < column
  | none => false

/-- A list entry begins here: a dash that stands alone. -/
def isEntry (c : Cursor) : Bool :=
  match c.rest with
  | '-' :: rest => isParted rest
  | _ => false

end Cursor

/-- Moves over blanks, line ends and comments.  A tabulator only counts as a blank between the
brackets of a flow collection, or behind something on its line. -/
def skip (flow : Bool) : Bool → Option Nat → List Char → Cursor
  | _, place, [] => ⟨place, []⟩
  | comment, place, c :: rest =>
    if c = '\n' then skip flow false (some 0) rest
    else if comment then skip flow true place rest
    else if c = ' ' then skip flow false (place.map (· + 1)) rest
    else if c = '\t' ∧ (flow ∨ place = none) then skip flow false place rest
    else if c = '#' then skip flow true place rest
    else ⟨place, c :: rest⟩

/-- The cursor at the next thing in block context. -/
def Cursor.next (c : Cursor) : Cursor := skip false false c.place c.rest

/-- The cursor at the next thing between brackets; its place tells whether a line has ended on
the way. -/
def flowNext (rest : List Char) : Cursor := skip true false none rest

end TurtleCurves.Document
