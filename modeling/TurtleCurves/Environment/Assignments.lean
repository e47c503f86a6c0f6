import TurtleCurves.Text.Blank
import TurtleCurves.Text.Lines

namespace TurtleCurves

/-!
# Environment files

A file of assignments `NAME=value`, one a line, that stand in for variables of the environment.

* `Variables` — names with their values;
* `Assignments.logicalLines` — lines joined where a quote or an escape is open at their end;
* `Assignments.value?` — the value of a right-hand side: quotes, escapes, `$name`,
  `$\x7bname\x7d`, and a comment behind a blank;
* `Assignments.extend` — the environment with the assignments of a file.  A variable that has a
  value keeps it, and the first line that is no assignment ends the file.
-/

/-- Names with their values. -/
abbrev Variables := List (List Char × List Char)

/-- The value of a name. -/
def Variables.find? (v : Variables) (name : List Char) : Option (List Char) :=
  (List.find? (fun e => e.1 == name) v).map Prod.snd

namespace Assignments

/-! ### Lines -/

/-- What is open in the middle of a line. -/
inductive Opening where
  | nothing
  | blank
  | backslash
  /-- A single quote, or a backslash behind one. -/
  | strong (escaped : Bool)
  /-- A double quote, or a backslash behind one. -/
  | weak (escaped : Bool)
  deriving DecidableEq, Repr

/-- What a character opens when nothing but blanks is open. -/
def Opening.fresh (c : Char) : Opening :=
  if c = '\\' then .backslash
  else if c = '"' then .weak false
  else if c = '\'' then .strong false
  else .nothing

/-- What is open after one more character. -/
def Opening.step (o : Opening) (c : Char) : Opening :=
  match o with
  | .nothing =>
    if Text.isBlank c ∧ c ≠ '\n' ∧ c ≠ '\r' then .blank else fresh c
  | .blank => fresh c
  | .backslash => .nothing
  | .strong true => .strong false
  | .weak true => .weak false
  | .strong false => if c = '\\' then .strong true else if c = '\'' then .nothing else .strong false
  | .weak false => if c = '\\' then .weak true else if c = '"' then .nothing else .weak false

/-- Reads a line: what is open at its end, or, if a comment begins behind a blank, what stands
before it. -/
def scan (o : Opening) (seen : List Char) : List Char → Except (List Char) Opening
  | [] => .ok o
  | c :: rest =>
    if o = .blank ∧ c = '#' then .error seen.reverse else scan (o.step c) (c :: seen) rest

/-- The lines of a text with their line feeds. -/
def endedLines : List Char → List (List Char)
  | [] => []
  | c :: rest =>
    if c = '\n' then [c] :: endedLines rest
    else match endedLines rest with
      | [] => [[c]]
      | line :: lines => (c :: line) :: lines

/-- A line without its ending. -/
def chop (line : List Char) : List Char :=
  match line.reverse with
  | '\n' :: rest => Text.chopReturn rest.reverse
  | _ => line

/-- Joins lines until nothing is open; `none` stands for a text that ends with something
open. -/
def joinLines (o : Opening) (before : List Char) : List (List Char) → List (Option (List Char))
  | [] => if o = .nothing then [] else [none]
  | line :: rest =>
    let all := before ++ line
    if (Text.trimStart all).head? = some '#' then some [] :: joinLines .nothing [] rest
    else match scan o [] line with
      | .error start => some (before ++ start) :: joinLines .nothing [] rest
      | .ok .nothing => some (chop all) :: joinLines .nothing [] rest
      | .ok o => joinLines o all rest

/-- The lines of a file, joined where something is open at their end. -/
def logicalLines (text : List Char) : List (Option (List Char)) :=
  joinLines .nothing [] (endedLines text)

/-! ### Values -/

/-- What a right-hand side is being read as. -/
inductive Mode where
  | plain
  /-- A value is over: blanks or a comment may follow. -/
  | over
  /-- Behind a backslash, with the mode to go back to. -/
  | escape (quoted : Bool)
  | strong
  | weak
  /-- A name behind a dollar sign, last character first. -/
  | name (quoted : Bool) (seen : List Char)
  /-- A name in braces. -/
  | braced (quoted : Bool) (seen : List Char)

/-- The mode outside of names. -/
def Mode.base (quoted : Bool) : Mode := if quoted then .weak else .plain

/-- The character of an escape. -/
def unescape? (c : Char) : Option Char :=
  if c = 'n' then some '\n'
  else if c = '\\' ∨ c = '\'' ∨ c = '"' ∨ c = '$' ∨ c = ' ' then some c
  else none

/-- A letter or digit of a name behind a dollar sign. -/
def isNamePart (c : Char) : Bool := c.isAlphanum || 0x7f < c.toNat && !Text.isBlank c

/-- Reads a right-hand side; `out` is its value so far, last character first. -/
def valueFrom? (lookup : List Char → List Char) (out : List Char) :
    Mode → List Char → Option (List Char)
  | .plain, [] | .over, [] | .escape false, [] => some out.reverse
  | .name false seen, [] => some (out.reverse ++ lookup seen.reverse)
  | _, [] => none
  | .over, c :: rest =>
    if c = ' ' ∨ c = '\t' then valueFrom? lookup out .over rest
    else if c = '#' then some out.reverse
    else none
  | .escape quoted, c :: rest =>
    match unescape? c with
    | some d => valueFrom? lookup (d :: out) (Mode.base quoted) rest
    | none => none
  | .strong, c :: rest =>
    if c = '\'' then valueFrom? lookup out .plain rest else valueFrom? lookup (c :: out) .strong rest
  | .name quoted seen, c :: rest =>
    if isNamePart c then valueFrom? lookup out (.name quoted (c :: seen)) rest
    else if c = '\x7b' ∧ seen = [] then valueFrom? lookup out (.braced quoted []) rest
    else
      let out := (lookup seen.reverse).reverse ++ out
      if c = '$' then valueFrom? lookup out (.name quoted []) rest
      else valueFrom? lookup (c :: out) (Mode.base quoted) rest
  | .braced quoted seen, c :: rest =>
    if c = '\x7d' then
      valueFrom? lookup ((lookup seen.reverse).reverse ++ out) (Mode.base quoted) rest
    else valueFrom? lookup out (.braced quoted (c :: seen)) rest
  | .weak, c :: rest =>
    if c = '$' then valueFrom? lookup out (.name true []) rest
    else if c = '"' then valueFrom? lookup out .plain rest
    else if c = '\\' then valueFrom? lookup out (.escape true) rest
    else valueFrom? lookup (c :: out) .weak rest
  | .plain, c :: rest =>
    if c = '$' then valueFrom? lookup out (.name false []) rest
    else if c = '\'' then valueFrom? lookup out .strong rest
    else if c = '"' then valueFrom? lookup out .weak rest
    else if c = '\\' then valueFrom? lookup out (.escape false) rest
    else if c = ' ' ∨ c = '\t' then valueFrom? lookup out .over rest
    else valueFrom? lookup (c :: out) .plain rest

/-- The value of a right-hand side. -/
def value? (lookup : List Char → List Char) (cs : List Char) : Option (List Char) :=
  valueFrom? lookup [] .plain cs

/-! ### Assignments -/

/-- A name at the beginning of a line, and what follows it. -/
def takeName? : List Char → Option (List Char × List Char)
  | [] => none
  | c :: rest =>
    if c.isAlpha || c = '_' then
      let isPart (c : Char) := c.isAlphanum || c = '_' || c = '.'
      some (c :: rest.takeWhile isPart, Text.trimStart (rest.dropWhile isPart))
    else none

/-- What follows an equals sign. -/
def takeEqual? : List Char → Option (List Char)
  | '=' :: rest => some (Text.trimStart rest)
  | _ => none

/-- The two sides of an assignment; a word `export` may stand in front. -/
def sides? (line : List Char) : Option (List Char × List Char) := do
  let (name, rest) ← takeName? line
  match takeEqual? rest with
  | some value => return (name, value)
  | none =>
    if name = "export".toList then do
      let (name, rest) ← takeName? rest
      return (name, ← takeEqual? rest)
    else none

/-- The environment while a file is read: what has a value, and what the file itself has
assigned. -/
structure State where
  environment : Variables
  assigned : Variables

/-- The value of a name inside of a value; a name without one stands for nothing. -/
def State.lookup (s : State) (name : List Char) : List Char :=
  ((s.environment.find? name).or (s.assigned.find? name)).getD []

/-- The environment after one more assignment. -/
def State.assign (s : State) (name value : List Char) : State :=
  { environment := if (s.environment.find? name).isSome then s.environment
      else s.environment ++ [(name, value)]
    assigned := (name, value) :: s.assigned }

/-- The environment after one line, unless that is neither blank, nor a comment, nor an
assignment. -/
def State.line? (s : State) (line : List Char) : Option State :=
  match Text.trim line with
  | [] | '#' :: _ => some s
  | cs => do
    let (name, right) ← sides? cs
    match right with
    | [] | '#' :: _ => return s.assign name []
    | _ => return s.assign name (← value? s.lookup right)

/-- Reads lines as far as they are assignments. -/
def State.readLines (s : State) : List (Option (List Char)) → State
  | [] | none :: _ => s
  | some line :: rest =>
    match s.line? line with
    | none => s
    | some s => s.readLines rest

/-- The environment with the assignments of a file. -/
def extend (environment : Variables) (text : List Char) : Variables :=
  let text := match text with
    | '\ufeff' :: rest => rest
    | _ => text
  (State.readLines ⟨environment, []⟩ (logicalLines text)).environment

end Assignments

end TurtleCurves
