namespace TurtleCurves.Text

/-!
# Lines

A line ends at a line feed, and a carriage return right before it belongs to the ending.  The
empty rest after a last line feed is no line.

* `splitOn` — the pieces of a text between occurrences of a character;
* `lines` — the lines of a text.
-/

/-- The pieces between the occurrences of `sep`; there is always one. -/
def splitOn (sep : Char) : List Char → List (List Char)
  | [] => [[]]
  | c :: rest =>
    if c = sep then [] :: splitOn sep rest
    else match splitOn sep rest with
      | [] => [[c]]
      | piece :: pieces => (c :: piece) :: pieces

theorem splitOn_ne_nil (sep : Char) (cs : List Char) : splitOn sep cs ≠ [] := by
  cases cs with
  | nil => simp [splitOn]
  | cons c rest =>
    unfold splitOn
    split
    · simp
    · split <;> simp

/-- The line without a carriage return at its end. -/
def chopReturn (line : List Char) : List Char :=
  if line.getLast? = some '\r' then line.dropLast else line

/-- The lines of a text: a carriage return is dropped only in front of a line feed. -/
def lines (cs : List Char) : List (List Char) :=
  let pieces := splitOn '\n' cs
  let ended := pieces.dropLast.map chopReturn
  match pieces.getLast? with
  | none | some [] => ended
  | some rest => ended ++ [rest]

/-- Texts joined by line feeds. -/
def unlines (ls : List (List Char)) : List Char := List.intercalate ['\n'] ls

end TurtleCurves.Text
