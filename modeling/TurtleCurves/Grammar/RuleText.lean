import TurtleCurves.Grammar.Basic
import TurtleCurves.Text.Blank
import TurtleCurves.Text.Lines

namespace TurtleCurves.Rules

/-!
# Rules as text

One rule a line, a letter and its expansion with `=` between them.

* `render` — the lines of a rule map, in the order of the letters;
* `readLine?` — one line; white space around either side is dropped, and a line without `=`,
  with an empty side or with more than one letter holds no rule;
* `parse` — a whole text, where a later rule replaces an earlier one.
-/

/-! ### Writing -/

/-- The line of one rule. -/
def renderLine (rule : Char × Word) : List Char := rule.1 :: '=' :: rule.2

/-- The rules as lines. -/
def renderLines (rules : Rules) : List (List Char) := rules.entries.map renderLine

/-- The rules as text. -/
def render (rules : Rules) : List Char := Text.unlines rules.renderLines

/-! ### Reading -/

/-- The two sides of the first `=`. -/
def sides? (line : List Char) : Option (List Char × List Char) :=
  match line.dropWhile (· != '=') with
  | [] => none
  | _ :: right => some (line.takeWhile (· != '='), right)

/-- The rule on a line. -/
def readLine? (line : List Char) : Option (Char × Word) :=
  match sides? line with
  | none => none
  | some (left, right) =>
    match Text.trim left, Text.trim right with
    | [c], w => if w.isEmpty then none else some (c, w)
    | _, _ => none

/-- The rules of a text. -/
def parse (text : List Char) : Rules :=
  SortedMap.ofList ((Text.lines text).filterMap readLine?)

end TurtleCurves.Rules
