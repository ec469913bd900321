import SolidityTree.Files
import SolidityTree.Settings.Reader

/-!
# Settings files

The settings of a program stand in a file that is looked for in four places, the first that is there
being taken; if there is none, the defaults hold.
-/

namespace SolidityTree.Settings

/-- Where a settings file is looked for, in this order. -/
def searchPaths : List String :=
  ["config/settings.yaml", "settings.yaml", "src/config/settings.yaml", "../config/settings.yaml"]

/-- Why no settings could be loaded. -/
inductive LoadTrouble where
  | unreadable (failure : Files.Failure)
  | refused (trouble : Trouble)
  deriving DecidableEq

/-- The settings in the file at a path. -/
def loadFile (files : Files) (path : String) : Except LoadTrouble Settings :=
  match files.read path.toList with
  | .error failure => .error (.unreadable failure)
  | .ok text => (parse text).mapError .refused

/-- The path of the settings file. -/
def search (files : Files) : Option String := searchPaths.find? fun path => files.isThere path.toList

/-- The settings in the settings file, or the defaults if there is none. -/
def load (files : Files) : Except LoadTrouble Settings :=
  match search files with
  | none => .ok default
  | some path => loadFile files path

/-- What went wrong, where it is more than that the text is no settings text. -/
def LoadTrouble.message? : LoadTrouble → Option String
  | unreadable failure => some ("Failed to read configuration file: " ++ failure.message)
  | refused (.outOfRange trouble) => some trouble.message
  | refused .malformed | refused .misfit => none

end SolidityTree.Settings
