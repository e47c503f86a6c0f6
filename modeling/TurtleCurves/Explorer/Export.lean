import TurtleCurves.Explorer.Report
import TurtleCurves.Storage.Directory

namespace TurtleCurves

/-!
# Saving a picture

A picture is saved as two files in one folder: the image, and the settings that it was made with.

* `PicturePaths` — where the two files are;
* `Explorer.pictureChanges` — what saving does to the disk.
-/

/-- The files of a picture. -/
structure PicturePaths where
  picture : List Char
  settings : List Char
  deriving DecidableEq, Repr

/-- The files of a picture in a folder. -/
def PicturePaths.ofName (folder name : List Char) : PicturePaths :=
  ⟨joinPath folder (name ++ ".png".toList), joinPath folder (name ++ "_settings.txt".toList)⟩

/-- What saving the picture on show does to the disk: the folder is made first, the image is
written before the settings. -/
def Explorer.pictureChanges {α : Type} [Scalar α] (e : Explorer α) (time : String)
    (folder : List Char) (paths : PicturePaths) : Except (Failure α) (List Change) :=
  match e.settingsText time with
  | .error failure => .error failure
  | .ok text =>
    .ok [.folders folder, .file paths.picture (.picture e.picture),
      .file paths.settings (.text text)]

end TurtleCurves
