import ComponentSurvey.Discovery.Filter
import ComponentSurvey.Ignore.Rules
import ComponentSurvey.Order.Insertion
import ComponentSurvey.Settings.File

/-!
# Searching a project

A search looks for files below the root of a project: those that a walk comes to without entering
anything ignored, and that the filter accepts.
-/

namespace ComponentSurvey

inductive ProjectError
  | notDirectory (root : String)
  | pattern (error : Glob.PatternError)
  | settings (error : SettingsError)
deriving DecidableEq, Repr, Inhabited

def ProjectError.message : ProjectError → String
  | .notDirectory root => s!"Configuration error: root is not a directory: {root}"
  | .pattern error => s!"Invalid glob pattern: {error.message}"
  | .settings error => s!"Configuration error: {error.message}"

namespace ScannerSettings

/-- Puts lists of patterns in the place of those that are set; an empty list leaves them. -/
def withPatterns (settings : ScannerSettings) (included excluded : List String) :
    ScannerSettings :=
  { settings with
    included := if included.isEmpty then settings.included else included
    excluded := if excluded.isEmpty then settings.excluded else excluded }

/-- Settings in which an empty list of patterns stands for the default one. -/
def withDefaultPatterns (settings : ScannerSettings) : ScannerSettings :=
  { settings with
    included := if settings.included.isEmpty then defaultInclude else settings.included
    excluded := if settings.excluded.isEmpty then defaultExclude else settings.excluded }

end ScannerSettings

structure Search where
  root : String
  filter : Filter
  respectIgnoreFiles : Bool
deriving DecidableEq, Repr, Inhabited

namespace Search

def begin (tree : FileTree) (root : String) (settings : ScannerSettings) :
    Except ProjectError Search :=
  if tree.isDirectory root then
    match Filter.compile settings.included settings.excluded settings.deep with
    | .ok filter => .ok ⟨root, filter, settings.respectIgnoreFiles⟩
    | .error error => .error (.pattern error)
  else .error (.notDirectory root)

def pathOf (search : Search) (file : String) : String := Path.join search.root file

def reachedFiles (search : Search) (tree : FileTree) : List String :=
  match tree.locate search.root with
  | .error _ => []
  | .ok root =>
    let reached := (tree.filesBelow root).filter fun place =>
      !search.respectIgnoreFiles || Ignore.isReached tree root place
    reached.map fun place => Place.path (place.drop root.length)

/-- The files to look at, in the order of their paths. -/
def discover (search : Search) (tree : FileTree) : List String :=
  Order.sortBy Path.mayPrecede ((search.reachedFiles tree).filter search.filter.accepts)

end Search

end ComponentSurvey
