import TurtleCurves.Environment.Assignments
import TurtleCurves.Journal.Filter
import TurtleCurves.Settings.File
import TurtleCurves.Storage.Directory
import TurtleCurves.Text.Quoted

namespace TurtleCurves

/-!
# Sessions

A command runs in a working directory; it prints lines, notes what it does, and may stop early.

* `Session` — what has come of a command so far;
* `Stop` — how a command ends before its last step;
* `Command` — commands that read and change a session;
* `print`, `note`, `change`, `fail`, `stop` — their steps.
-/

/-- Something that appears on the screen. -/
inductive Output where
  | line (text : List Char)
  | entry (e : Entry)
  deriving DecidableEq, Repr

/-- What has come of a command so far. -/
structure Session where
  directory : Directory
  filter : Filter
  /-- What appeared on the screen, the last thing first. -/
  shown : List Output
  /-- What was done to the disk, the last thing first. -/
  done : List Change

/-- How a command ends before its last step. -/
structure Stop where
  code : Nat
  /-- What is said about it on the error channel. -/
  complaint : List Char
  deriving DecidableEq, Repr

/-- A part of a command. -/
abbrev Command (β : Type) := Session → Except Stop β × Session

namespace Command

/-- Nothing is done. -/
def pure {β : Type} (x : β) : Command β := fun s => (.ok x, s)

/-- One part after the other, unless the first one stops. -/
def andThen {β γ : Type} (c : Command β) (f : β → Command γ) : Command γ := fun s =>
  match c s with
  | (.error stop, s) => (.error stop, s)
  | (.ok x, s) => f x s

instance : Monad Command where
  pure := Command.pure
  bind := Command.andThen

/-- The command ends here. -/
def stop {β : Type} (code : Nat) (complaint : String) : Command β := fun s =>
  (.error ⟨code, complaint.toList⟩, s)

/-- The command ends with an error. -/
def fail {β : Type} (reason : String) : Command β := stop 1 ("Error: " ++ reason)

/-- The present session. -/
def session : Command Session := fun s => (.ok s, s)

/-- A line on the screen. -/
def print (text : List Char) : Command Unit := fun s =>
  (.ok (), { s with shown := .line text :: s.shown })

/-- Lines on the screen. -/
def printAll (lines : List String) : Command Unit := lines.forM fun l => print l.toList

/-- A note, if the filter admits it. -/
def note (level : Level) (part : Part) (text : List Char) : Command Unit := fun s =>
  let e : Entry := ⟨level, part, text⟩
  (.ok (), if s.filter.admits e then { s with shown := .entry e :: s.shown } else s)

/-- A change of the disk. -/
def change (c : Change) : Command Unit := fun s =>
  match s.directory.perform c with
  | .error fault => (.error ⟨1, ("Error: " ++ fault.message).toList⟩, s)
  | .ok d => (.ok (), { s with directory := d, done := c :: s.done })

end Command

/-- The bytes of a file that is read. -/
def Content.toBytes? : Content → Option ByteArray
  | .text s => some (String.ofList s).toUTF8
  | .bytes b => some b
  | .picture _ => none

end TurtleCurves
