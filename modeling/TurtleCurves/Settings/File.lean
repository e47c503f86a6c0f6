import TurtleCurves.Document.Reader
import TurtleCurves.Settings.Codec

namespace TurtleCurves

/-!
# Settings files

* `SettingsFault` — why a file holds no settings;
* `Settings.ofFile` — the settings of a file.
-/

/-- Why a file holds no settings. -/
inductive SettingsFault where
  /-- There is no such file. -/
  | missing
  /-- Its bytes are no text. -/
  | undecodable
  /-- Its text is no document. -/
  | malformed
  /-- Its document describes no settings. -/
  | unfitting
  deriving DecidableEq, Repr

/-- The wording of a fault. -/
def SettingsFault.message : SettingsFault → String
  | .missing => "No such file or directory (os error 2)"
  | .undecodable => "stream did not contain valid UTF-8"
  | .malformed => "invalid document"
  | .unfitting => "invalid settings"

namespace Settings

variable {α : Type} [Scalar α]

/-- The settings of a text. -/
def ofText (text : List Char) : Except SettingsFault (Settings α) :=
  match (Document.read? text : Option (Value α)) with
  | none => .error .malformed
  | some v =>
    match ofValue? v with
    | none => .error .unfitting
    | some s => .ok s

/-- The settings of a file's bytes; `none` stands for a missing file. -/
def ofFile (content : Option ByteArray) : Except SettingsFault (Settings α) :=
  match content with
  | none => .error .missing
  | some bytes =>
    match String.fromUTF8? bytes with
    | none => .error .undecodable
    | some text => ofText text.toList

end Settings

end TurtleCurves
