namespace TurtleCurves

/-!
# The journal

What a program notes about its own work, with a level and the part of the program that it
comes from.

* `Level` — how severe an entry is;
* `Part`, `Part.path` — the parts of the program, and the paths that filters name them by;
* `Entry` — one note.
-/

/-- How severe an entry is, the most severe first. -/
inductive Level where
  | error
  | warn
  | info
  | debug
  | trace
  deriving DecidableEq, Repr

namespace Level

/-- The levels from the most severe on. -/
def all : List Level := [error, warn, info, debug, trace]

/-- The position of a level, counted from one. -/
def rank : Level → Nat
  | error => 1
  | warn => 2
  | info => 3
  | debug => 4
  | trace => 5

/-- The name of a level. -/
def name : Level → String
  | error => "ERROR"
  | warn => "WARN"
  | info => "INFO"
  | debug => "DEBUG"
  | trace => "TRACE"

end Level

/-- The parts of the program that write entries. -/
inductive Part where
  | program
  | journal
  | settings
  | explorer
  | growth
  | exporting
  deriving DecidableEq, Repr

/-- The path of a part. -/
def Part.path : Part → String
  | program => "lsystem_explorer"
  | journal => "lsystem_explorer::logging"
  | settings => "lsystem_explorer::config"
  | explorer => "lsystem_explorer::state"
  | growth => "lsystem_explorer::lsystem::grammar"
  | exporting => "lsystem_explorer::export"

/-- One note. -/
structure Entry where
  level : Level
  part : Part
  text : List Char
  deriving DecidableEq, Repr

/-- An entry as a line. -/
def Entry.line (e : Entry) : List Char := e.level.name.toList ++ ' ' :: e.text

end TurtleCurves
