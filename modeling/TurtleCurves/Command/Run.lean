import TurtleCurves.Command.Help
import TurtleCurves.Command.Session
import TurtleCurves.Explorer.Export
import TurtleCurves.Explorer.Iteration

namespace TurtleCurves

/-!
# Running a command line

* `Invocation` — arguments, environment and working directory of a run;
* `Invocation.run` — the whole run: environment file, journal, arguments, settings, command;
* `Invocation.paths` — the paths that a run asks about;
* `Outcome` — what has come of it.
-/

/-- What a run begins with. -/
structure Invocation (α : Type) where
  arguments : List String
  /-- The variables of the process. -/
  environment : Variables
  directory : Directory
  /-- The present time, as it is written into settings texts. -/
  time : String
  /-- The present time, as it is put into file names. -/
  stamp : String
  /-- How numbers are written in JSON. -/
  number : α → String

/-- What has come of a run. -/
structure Outcome where
  code : Nat
  shown : List Output
  complaint : List Char
  directory : Directory
  changes : List Change

/-! ### Environment -/

/-- What the environment decides. -/
structure Surroundings where
  outputFolder : List Char
  journalFolder : List Char
  filter : Filter

/-- The name of the environment file. -/
def environmentFile : List Char := ".env".toList

/-- The text of the environment file; one that cannot be read counts as empty. -/
def environmentText (d : Directory) : List Char :=
  match (d.read environmentFile).toOption.bind Content.toBytes? with
  | none => []
  | some bytes => ((String.fromUTF8? bytes).map String.toList).getD []

/-- What the variables decide. -/
def Surroundings.ofVariables (v : Variables) : Surroundings where
  outputFolder := (v.find? "LSYS_OUTPUT_DIR".toList).getD "./output".toList
  journalFolder := (v.find? "LSYS_LOG_DIR".toList).getD "logs".toList
  filter := ((v.find? "RUST_LOG".toList).bind Filter.ofText?).getD Filter.default

namespace Invocation

variable {α : Type} [Scalar α]

/-- What the environment of a run decides. -/
def surroundings (inv : Invocation α) : Surroundings :=
  Surroundings.ofVariables (Assignments.extend inv.environment (environmentText inv.directory))

end Invocation

/-- The name of the files of a rendering. -/
def Rendering.fileName (r : Rendering) (stamp : String) : String :=
  r.name.getD (r.preset ++ "_" ++ stamp)

namespace Command

variable {α : Type} [Scalar α]

/-! ### Notes -/

/-- Texts one after the other. -/
def joined (texts : List String) : List Char := (String.join texts).toList

/-- Makes the folder of the journal and begins it; a file in its place breaks the run off. -/
def openJournal (folder : List Char) : Command Unit := do
  let d := (← session).directory
  if (d.read folder).isOk then stop 101 "initializing rolling file appender failed"
  if folder ≠ [] ∧ !d.contains folder then change (.folders folder)
  note .info .journal ("Logging initialized. Log directory: ".toList ++ folder)

/-- Notes the presets that cannot be drawn. -/
def noteRefused (s : Settings α) : Command Unit :=
  s.refused.forM fun (p, fault) =>
    note .warn .settings
      (joined ["Skipping invalid preset key=", p.key, " error=", fault.message])

/-- Notes the steps of an iteration. -/
def noteIteration (i : Iteration α) : Command Unit := do
  i.taken.reverse.forM fun g =>
    note .debug .growth
      (joined ["Generated sentence iteration=", toString g.iteration, " length=", toString g.size])
  match i.refusal with
  | some (.overgrown o) =>
    note .warn .growth
      (joined ["Refusing to iterate length=", toString o.length, " ceiling=", toString o.ceiling])
  | _ => pure ()

/-! ### Settings -/

/-- Reads the settings file; without one, everything is as by default. -/
def readSettings (path : List Char) : Command (Settings α) := do
  let d := (← session).directory
  if !d.contains path then
    note .warn .program
      ("Config file not found: ".toList ++ Text.quoted path ++ ", using defaults".toList)
    return Settings.default
  else
    note .info .program ("Loading config from ".toList ++ Text.quoted path)
    match d.read path with
    | .error fault => fail fault.message
    | .ok content =>
      match Settings.ofFile content.toBytes? with
      | .error fault => fail fault.message
      | .ok s => return s

/-! ### Commands -/

/-- A preset on a line of the list. -/
def presetLine (p : Preset α) : List Char :=
  ("  - " ++ p.name ++ " [" ++ p.key ++ "] axiom=").toList ++ p.grammar.seed ++
    (" angle=" ++ Scalar.text p.grammar.angle).toList

/-- Names the presets. -/
def list (s : Settings α) : Command Unit := do
  noteRefused s
  print ("Available presets (" ++ toString s.presetTable.size ++ "):").toList
  print []
  s.presetTable.presets.forM fun p => print (presetLine p)

/-- Grows a preset; a refusal is told. -/
def grown (s : Settings α) (key : String) (n : Nat) (side : α) : Command (Explorer α) := do
  noteRefused s
  match Explorer.iteratePreset s key n side with
  | .error failure => fail failure.message
  | .ok i =>
    match s.presetTable.get? key with
    | some p => note .info .explorer (joined ["Loading preset key=", p.key, " name=", p.name])
    | none => pure ()
    noteIteration i
    match i.refusal with
    | some failure => print ("Stopped early: " ++ failure.message).toList
    | none => pure ()
    return i.explorer

/-- The numbers of a preset as text. -/
def statisticsText (s : Statistics α) : List (List Char) :=
  let places (x : α) : String := Scalar.fixed 2 x
  let b := s.bounds
  [joined ["Preset:          ", s.preset.getD "custom"],
   joined ["Iteration:       ", toString s.iteration],
   joined ["Sentence length: ", Decimal.grouped s.sentenceLength, " chars"],
   joined ["Segments:        ", Decimal.grouped s.segments],
   joined ["Bounds:          x ", places b.minX, "..", places b.maxX, ", y ", places b.minY, "..",
     places b.maxY, " (", places b.width, " x ", places b.height, ")"],
   "Alphabet:        ".toList ++ s.alphabet]

/-- The numbers of a preset as JSON. -/
def statisticsJson (number : α → String) (s : Statistics α) : List (List Char) :=
  let preset := match s.preset with
    | some key => Text.jsonQuoted key.toList
    | none => "null".toList
  let value (x : α) : String := if Scalar.isFinite x then number x else "null"
  ["\x7b".toList,
   "  \"preset\": ".toList ++ preset ++ [','],
   joined ["  \"iteration\": ", toString s.iteration, ","],
   joined ["  \"sentence_length\": ", toString s.sentenceLength, ","],
   joined ["  \"segments\": ", toString s.segments, ","],
   "  \"bounds\": \x7b".toList,
   joined ["    \"min_x\": ", value s.bounds.minX, ","],
   joined ["    \"max_x\": ", value s.bounds.maxX, ","],
   joined ["    \"min_y\": ", value s.bounds.minY, ","],
   joined ["    \"max_y\": ", value s.bounds.maxY],
   "  \x7d,".toList,
   "  \"alphabet\": ".toList ++ Text.jsonQuoted s.alphabet,
   "\x7d".toList]

/-- Grows a preset and prints its numbers. -/
def stats (number : α → String) (s : Settings α) (key : String) (n : Nat) (json : Bool) :
    Command Unit := do
  let e ← grown s key n (1 : α)
  match e.statistics? with
  | none => fail (Failure.noSystem : Failure α).message
  | some numbers =>
    (if json then statisticsJson number numbers else statisticsText numbers).forM print

/-- Writes the picture on show and its settings. -/
def exportPicture (e : Explorer α) (time : String) (folder name : List Char) :
    Command PicturePaths := do
  let paths := PicturePaths.ofName folder name
  match e.pictureChanges time folder paths with
  | .error failure => fail failure.message
  | .ok changes =>
    changes.forM change
    note .info .exporting
      ("Exported fractal png=".toList ++ Text.quoted paths.picture ++ " settings=".toList ++
        Text.quoted paths.settings)
    return paths

/-- Grows a preset and draws it into a file. -/
def render (inv : Invocation α) (folder : List Char) (s : Settings α) (r : Rendering) :
    Command Unit := do
  let e ← grown s r.preset r.iterations (Arith.ofNat r.size : α)
  let e := { e with colorMode := r.mode.getD e.colorMode, axis := r.axis.getD e.axis }
  let paths ← exportPicture e inv.time folder (r.fileName inv.stamp).toList
  print ("  ".toList ++ r.preset.toList ++ " -> ".toList ++ Text.quoted paths.picture)
  print ("  settings -> ".toList ++ Text.quoted paths.settings)

/-- Carries a request out. -/
def perform (inv : Invocation α) (folder : List Char) (s : Settings α) : Request → Command Unit
  | .gui => do
    note .info .program "Launching native GUI explorer".toList
    fail "no screen is attached"
  | .list => list s
  | .stats key n json => stats inv.number s key n json
  | .render r => render inv folder s r

/-- The request of the arguments, or the end that they ask for. -/
def request (arguments : List String) : Command (String × Request) :=
  match Request.ofArguments arguments with
  | .ok r => pure r
  | .error (.help scope) => do
    printAll scope.help
    stop 0 ""
  | .error usage => stop 2 ("error: " ++ usage.message)

/-- A whole run. -/
def whole (inv : Invocation α) (around : Surroundings) : Command Unit := do
  openJournal around.journalFolder
  note .info .program "L-System Explorer starting up".toList
  let (path, request) ← request inv.arguments
  note .debug .program ("CLI args parsed: config=".toList ++ Text.quoted path.toList)
  let s : Settings α ← readSettings path.toList
  note .info .program (joined ["Config loaded: ", toString s.presets.length, " extra presets"])
  perform inv around.outputFolder s request

end Command

/-- The paths that a run asks about. -/
def Invocation.paths {α : Type} [Scalar α] (inv : Invocation α) : List (List Char) :=
  let around := inv.surroundings
  [environmentFile, around.journalFolder, around.outputFolder] ++
    match Request.ofArguments inv.arguments with
    | .error _ => []
    | .ok (path, .render r) =>
      let files := PicturePaths.ofName around.outputFolder (r.fileName inv.stamp).toList
      [path.toList, files.picture, files.settings]
    | .ok (path, _) => [path.toList]

/-- What comes of a run. -/
def Invocation.run {α : Type} [Scalar α] (inv : Invocation α) : Outcome :=
  let around := inv.surroundings
  let (result, s) := Command.whole inv around ⟨inv.directory, around.filter, [], []⟩
  let (code, complaint) := match result with
    | .ok _ => (0, [])
    | .error stop => (stop.code, stop.complaint)
  ⟨code, s.shown.reverse, complaint, s.directory, s.done.reverse⟩

end TurtleCurves
