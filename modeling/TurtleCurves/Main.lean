import Std.Time.DateTime.Timestamp
import TurtleCurves.Calendar
import TurtleCurves.Command.Run
import TurtleCurves.Decimal.Compact
import TurtleCurves.Raster.Png
import TurtleCurves.Scalar.Binary64

/-!
# The program

Everything is decided by `Invocation.run`.  What is here looks up the files and variables that a
run asks about, shows what it shows, and does to the disk what it does to its directory.
-/

namespace TurtleCurves.Program

/-! ### Looking around -/

/-- What is at a path of the disk. -/
def look (path : String) : IO (Option Node) := do
  try
    return some (.file (.bytes (← IO.FS.readBinFile path)))
  catch
    | .noFileOrDirectory .. => return none
    | _ => return some .folder

/-- The directory with what the disk has on a path. -/
def survey (d : Directory) (path : List Char) : IO Directory :=
  (d.placesOn path).foldlM (fun d place => do
    match ← look ("/" ++ Directory.joinNames place) with
    | none => return d
    | some node => return d.place place node) d

/-- The words of a text that can be names of variables. -/
def names (text : List Char) : List (List Char) :=
  let isPart (c : Char) : Bool := c.isAlphanum || c = '_' || c = '.'
  (text.foldr (fun c words =>
    match words with
    | word :: rest => if isPart c then (c :: word) :: rest else [] :: words
    | [] => if isPart c then [[c]] else [[]]) [[]]).filter (· ≠ [])

/-- The values that the process has for some names. -/
def lookUp (names : List (List Char)) : IO Variables :=
  names.filterMapM fun name => do
    return (← IO.getEnv (String.ofList name)).map fun value => (name, value.toList)

/-- The names of the variables that every run asks about. -/
def ownNames : List (List Char) :=
  ["LSYS_OUTPUT_DIR", "LSYS_LOG_DIR", "RUST_LOG"].map String.toList

/-! ### Doing -/

/-- The bytes of a file. -/
def bytesOf : Content → ByteArray
  | .text s => (String.ofList s).toUTF8
  | .bytes b => b
  | .picture image => image.png

/-- A change of the disk. -/
def perform : Change → IO Unit
  | .folders path => if path = [] then pure () else IO.FS.createDirAll (String.ofList path)
  | .file path content => IO.FS.writeBinFile (String.ofList path) (bytesOf content)

/-- Something that appears on the screen. -/
def present : Output → IO Unit
  | .line text => IO.println (String.ofList text)
  | .entry e => IO.println (String.ofList e.line)

/-! ### Runs -/

/-- The run of some arguments at a moment, as far as the disk and the process decide it. -/
def prepare (arguments : List String) (clock : Clock) : IO (Invocation Float) := do
  let place := Text.splitOn '/' (toString (← IO.currentDir)).toList
  let d ← survey (Directory.empty (place.filter (· ≠ []))) environmentFile
  let inv : Invocation Float :=
    { arguments := arguments
      environment := ← lookUp (ownNames ++ names (environmentText d))
      directory := d
      time := clock.text
      stamp := clock.stamp
      number := Decimal.compact }
  return { inv with directory := ← inv.paths.foldlM survey d }

/-- A whole run; the result is its exit code. -/
def run (arguments : List String) : IO UInt32 := do
  let seconds := (← Std.Time.Timestamp.now).toSecondsSinceUnixEpoch
  let inv ← prepare arguments (Clock.ofSeconds seconds.toInt.toNat)
  let outcome := inv.run
  outcome.changes.forM perform
  outcome.shown.forM present
  if outcome.complaint ≠ [] then IO.eprintln (String.ofList outcome.complaint)
  return UInt32.ofNat outcome.code

end TurtleCurves.Program

/-- The program. -/
def main (arguments : List String) : IO UInt32 := TurtleCurves.Program.run arguments
