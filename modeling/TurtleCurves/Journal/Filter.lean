import TurtleCurves.Journal.Entry
import TurtleCurves.Text.Lines

namespace TurtleCurves

/-!
# Journal filters

A filter is a list of directives between commas: a level for everything, or the path of a part
with a level.  The longest path that begins the path of an entry's part decides about the entry,
and of two directives with one path the later one.

* `Directive.ofText?` — one directive;
* `Filter.ofText?` — a filter;
* `Filter.admits` — an entry passes.
-/

/-- How much passes from the parts whose path begins with `path`: the ranks of levels up to
`limit`. -/
structure Directive where
  path : List Char
  limit : Nat
  deriving DecidableEq, Repr

namespace Directive

/-- The limit of a level's name or number. -/
def limit? (cs : List Char) : Option Nat :=
  match cs with
  | ['0'] => some 0
  | ['1'] => some 1
  | ['2'] => some 2
  | ['3'] => some 3
  | ['4'] => some 4
  | ['5'] => some 5
  | _ =>
    let name := String.ofList (cs.map Char.toUpper)
    if name == "OFF" then some 0
    else (Level.all.find? fun l => l.name == name).map Level.rank

/-- The character may stand in a path. -/
def isPathChar (c : Char) : Bool := c.isAlphanum || c = '_' || c = ':' || c = '-' || 0x7f < c.toNat

/-- The directive of a text. -/
def ofText? (cs : List Char) : Option Directive :=
  match limit? cs with
  | some limit => some ⟨[], limit⟩
  | none =>
    let path := cs.takeWhile isPathChar
    if path = [] then none
    else match cs.dropWhile isPathChar with
      | [] | ['='] => some ⟨path, Level.trace.rank⟩
      | '=' :: level => (limit? level).map fun limit => ⟨path, limit⟩
      | _ => none

end Directive

/-- A list of directives. -/
structure Filter where
  directives : List Directive
  deriving DecidableEq, Repr

namespace Filter

/-- Everything up to info, and debugging notes of the program itself. -/
def default : Filter :=
  ⟨[⟨[], Level.info.rank⟩, ⟨Part.program.path.toList, Level.debug.rank⟩]⟩

/-- The filter of a text; without a directive only errors pass. -/
def ofText? (cs : List Char) : Option Filter :=
  let pieces := (Text.splitOn ',' cs).filter fun p => !p.isEmpty
  if pieces.isEmpty then some ⟨[⟨[], Level.error.rank⟩]⟩
  else (pieces.mapM Directive.ofText?).map Filter.mk

/-- The more specific of two directives, the later one among equals. -/
def narrower (chosen : Option Directive) (d : Directive) : Option Directive :=
  match chosen with
  | none => some d
  | some c => if c.path.length ≤ d.path.length then some d else some c

/-- The directive that decides about a part. -/
def directiveFor? (f : Filter) (part : Part) : Option Directive :=
  (f.directives.filter fun d => d.path.isPrefixOf part.path.toList).foldl narrower none

/-- An entry passes. -/
def admits (f : Filter) (e : Entry) : Bool :=
  match f.directiveFor? e.part with
  | none => false
  | some d => e.level.rank ≤ d.limit

end Filter

end TurtleCurves
