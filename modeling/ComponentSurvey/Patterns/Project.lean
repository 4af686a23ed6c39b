import ComponentSurvey.Patterns.Json
import ComponentSurvey.Survey.Scan

/-!
# Patterns of a project

All files that a search finds are observed, tests and type declarations apart.
-/

namespace ComponentSurvey

def patternExcludes : List String := ["*.test.*", "*.spec.*", "*.d.ts"]

namespace Search

def observe (search : Search) (tree : FileTree) (file : String) :
    Except AnalysisError FileObservation :=
  (search.document tree file).map FileObservation.ofDocument

def observeAll (search : Search) (tree : FileTree) :
    List (String × Except AnalysisError FileObservation) :=
  (search.discover tree).map fun file => (file, search.observe tree file)

def findings (search : Search) (tree : FileTree) : Findings :=
  let results := search.observeAll tree
  .ofObservations (results.filterMap fun entry => entry.2.toOption)
    (results.filterMap fun entry =>
      match entry.2 with
      | .ok _ => none
      | .error error => some (error.failure entry.1))

end Search

namespace PatternReport

def ofProject (tree : FileTree) (root : String) (settings : ScannerSettings)
    (rules : List RecommendationRule) : Except ProjectError PatternReport := do
  let search ← Search.begin tree root
    { settings with excluded := settings.excluded ++ patternExcludes }
  return (search.findings tree).report rules

structure ExportError where
  path : String
  error : FileError
deriving DecidableEq, Repr, Inhabited

def ExportError.message (failure : ExportError) : String :=
  s!"Failed to write {failure.path}: {failure.error.message}"

def exportTo (report : PatternReport) (tree : FileTree) (path : String) :
    Except ExportError FileTree :=
  match tree.write path (.text report.text.toList) with
  | (after, none) => .ok after
  | (_, some error) => .error ⟨path, error⟩

end PatternReport

end ComponentSurvey
