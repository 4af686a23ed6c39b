import ComponentSurvey.Discovery.Search
import ComponentSurvey.Facts.Extraction
import ComponentSurvey.Survey.Manifest
import ComponentSurvey.Survey.Update

/-!
# Scanning a project

A scan analyzes every file that a search finds.  A file that cannot be analyzed is recorded and
does not keep the others from being analyzed.
-/

namespace ComponentSurvey

inductive AnalysisError
  | unreadable (path : String) (error : FileError)
  | unparsed (path : String)
deriving DecidableEq, Repr, Inhabited

namespace AnalysisError

/-- The place of a syntax error is not part of the message. -/
def message : AnalysisError → String
  | unreadable path error => s!"Failed to read {path}: {error.message}"
  | unparsed path => s!"syntax error in {path}"

def failure (error : AnalysisError) (file : String) : FileFailure :=
  match error with
  | unreadable _ cause => ⟨file, .stated cause.message⟩
  | unparsed _ => ⟨file, .unparsed⟩

end AnalysisError

namespace Search

def document (search : Search) (tree : FileTree) (file : String) :
    Except AnalysisError Syntax.Document :=
  match tree.readText (search.pathOf file) with
  | .error error => .error (.unreadable (search.pathOf file) error)
  | .ok source =>
    match Syntax.Document.ofComponentFile? file source with
    | none => .error (.unparsed file)
    | some document => .ok document

end Search

structure Scanner where
  search : Search
  battery : List Predicate

namespace Scanner

def analyze (scanner : Scanner) (tree : FileTree) (file : String) :
    Except AnalysisError (List Usage) :=
  (scanner.search.document tree file).map (extractUsages scanner.battery)

def resultOf (scanner : Scanner) (tree : FileTree) (file : String) : FileResult :=
  match scanner.analyze tree file with
  | .ok usages => .analyzed usages
  | .error error => .failed (error.failure file)

end Scanner

namespace DependencyReport

def ofProject (tree : FileTree) (root : String) : DependencyReport :=
  let path := Path.join root Manifest.fileName
  if !tree.isFile path then empty
  else
    match tree.readText path with
    | .error _ => unreadable
    | .ok text => ((Manifest.parse? text).map ofManifest).getD unreadable

end DependencyReport

namespace FileResult

def usages : FileResult → List Usage
  | analyzed usages => usages
  | _ => []

def failure? : FileResult → Option FileFailure
  | failed failure => some failure
  | _ => none

def isAnalyzed : FileResult → Bool
  | analyzed _ => true
  | _ => false

end FileResult

namespace Survey

def ofResults (root : String) (dependencies : DependencyReport)
    (results : List (String × FileResult)) : Survey :=
  { root := root
    usages := results.flatMap fun entry => entry.2.usages
    scannedFiles := (results.filter fun entry => entry.2.isAnalyzed).map Prod.fst
    failures := results.filterMap fun entry => entry.2.failure?
    dependencies := dependencies }

end Survey

namespace Scanner

def scan (scanner : Scanner) (tree : FileTree) : Survey :=
  let root := scanner.search.root
  .ofResults root (.ofProject tree root)
    ((scanner.search.discover tree).map fun file => (file, scanner.resultOf tree file))

/-- Analyzes one file again, given as seen from the root or by its whole path.  A file that is not
there or not accepted any more is taken out of the survey. -/
def rescan (scanner : Scanner) (tree : FileTree) (survey : Survey) (path : String) :
    Survey × UpdateReport :=
  let search := scanner.search
  let file := (Path.relativeTo? search.root path).getD path
  let result :=
    if tree.isFile (search.pathOf file) && search.filter.accepts file then
      scanner.resultOf tree file
    else .removed
  survey.update file result

end Scanner

/-- A scan with the settings in the root of a project, or with the given ones. -/
def scanProject (tree : FileTree) (root : String) (settings? : Option Settings) :
    Except ProjectError Survey := do
  let settings ← match settings? with
    | some settings => pure settings
    | none => (Settings.ofProject tree root).mapError .settings
  let search ← Search.begin tree root settings.scanner
  return { search := search, battery := Predicate.standard : Scanner }.scan tree

end ComponentSurvey
