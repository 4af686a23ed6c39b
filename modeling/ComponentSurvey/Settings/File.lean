import ComponentSurvey.Files.Tree
import ComponentSurvey.Settings.Toml

/-!
# Settings files
-/

namespace ComponentSurvey

inductive SettingsError
  | unreadable (path : String) (error : FileError)
  /-- The text is not TOML, or sets something to a value of the wrong kind. -/
  | malformed
deriving DecidableEq, Repr, Inhabited

/-- What is wrong with a malformed text is not part of the message. -/
def SettingsError.message : SettingsError → String
  | .unreadable path error => s!"Failed to read config file {path}: {error.message}"
  | .malformed => "Failed to parse config"

namespace Settings

def ofReading (path : String) : Except FileError (List Char) → Except SettingsError Settings
  | .error error => .error (.unreadable path error)
  | .ok text =>
    match parse? text with
    | none => .error .malformed
    | some settings => .ok settings

def read (tree : FileTree) (path : String) : Except SettingsError Settings :=
  ofReading path (tree.readText path)

/-- The settings in the root of a project, or the defaults if it has no settings file. -/
def ofProject (tree : FileTree) (root : String) : Except SettingsError Settings :=
  let path := Path.join root fileName
  if tree.isFile path then read tree path else .ok default

end Settings

end ComponentSurvey
