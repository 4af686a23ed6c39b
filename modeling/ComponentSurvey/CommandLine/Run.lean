import ComponentSurvey.CommandLine.Command
import ComponentSurvey.CommandLine.Failure
import ComponentSurvey.CommandLine.Template
import ComponentSurvey.CommandLine.Text
import ComponentSurvey.CommandLine.Usage

/-!
# Running commands

A command sees files from a working directory and leaves a file tree behind.  What it prints is
printed even if its report cannot be written afterwards.  It ends with 1 if it fails or if what it
looked at has errors, and with 2 if it is not understood.
-/

namespace ComponentSurvey.CommandLine

structure Workplace where
  tree : FileTree
  directory : String
  /-- Settings for all projects of a user: the path of the file, and what reading it came to. -/
  userSettings : Option (String × Except FileError (List Char))
  time : String

inductive Printout
  | lines (lines : List String)
  | document (document : Json)
deriving DecidableEq, Repr, Inhabited

structure Ending where
  tree : FileTree
  printout : Printout
  notes : List String
  failure : Option CommandFailure
  exitCode : Nat
deriving DecidableEq, Repr, Inhabited

def stamped (time : String) : Json → Json
  | .object members => .object (("generatedAt", .string time) :: members)
  | other => other

namespace Printout

def text : Printout → String
  | .lines printed => String.join (printed.map fun line => line ++ "\n")
  | .document printed => printed.pretty ++ "\n"

end Printout

namespace Workplace

def pathOf (place : Workplace) (path : String) : String := Path.join place.directory path

def printing (place : Workplace) (printout : Printout) (isClean : Bool) : Ending :=
  ⟨place.tree, printout, [], none, if isClean then 0 else 1⟩

def failing (place : Workplace) (failure : CommandFailure) : Ending :=
  ⟨place.tree, .lines [], [], some failure, 1⟩

def printout (place : Workplace) (format : OutputFormat) (text compact : List String)
    (document : Json) : Printout :=
  match format with
  | .text => .lines text
  | .compact => .lines compact
  | .json => .document (stamped place.time document)

def reporting (place : Workplace) (path : Option String) (document : Json) (ending : Ending) :
    Ending :=
  match path with
  | none => ending
  | some path =>
    let text := (stamped place.time document).pretty.toList
    match ending.tree.write (place.pathOf path) (.text text) with
    | (after, none) => { ending with tree := after }
    | (after, some error) =>
      { ending with tree := after, failure := some (.report path error), exitCode := 1 }

/-- The names a project may give its settings file, the one that counts first. -/
def settingsNames : List String := [Settings.fileName, "." ++ Settings.fileName]

def projectSettings? (place : Workplace) (project : String) : Option String :=
  (settingsNames.map (Path.join project)).find? fun path => place.tree.isFile (place.pathOf path)

/-- The settings that are asked for, or those of the project, or those of the user. -/
def settings (place : Workplace) (project : String) (named : Option String) :
    Except CommandFailure Settings :=
  match named.or (place.projectSettings? project) with
  | some path =>
    (Settings.ofReading path (place.tree.readText (place.pathOf path))).mapError (.settings path)
  | none =>
    match place.userSettings with
    | some (path, text) => (Settings.ofReading path text).mapError (.settings path)
    | none => .ok default

def unparsedNotes (survey : Survey) : List String :=
  survey.failures.filterMap fun failure =>
    match failure.cause with
    | .unparsed => some (AnalysisError.unparsed failure.file).message
    | .stated _ => none

def scan (place : Workplace) (settings : Settings) (verbose : Bool) (request : ScanRequest) :
    Except CommandFailure Ending := do
  let chosen := settings.scanner.withPatterns request.included request.excluded
  let search ← (Search.begin place.tree (place.pathOf request.path)
    { chosen with deep := chosen.deep && !request.shallow }).mapError
      (.project "Failed to build scanner")
  let survey := { search := search, battery := Predicate.standard : Scanner }.scan place.tree
  let printout := place.printout request.format (surveyLines survey) (compactSurveyLines survey)
    survey.toJson
  return place.reporting request.report survey.toJson
    { place.printing printout !survey.hasErrors with
      notes := if verbose then unparsedNotes survey else [] }

def analyze (place : Workplace) (settings : Settings) (request : AnalyzeRequest) :
    Except CommandFailure Ending := do
  let report ← (PatternReport.ofProject place.tree (place.pathOf request.path) settings.scanner
    RecommendationRule.standard).mapError (.project "Analysis failed")
  let printout := place.printout request.format (reportLines report) (compactReportLines report)
    report.toJson
  return place.reporting request.output report.toJson
    (place.printing printout report.findings.failures.isEmpty)

def outlook (place : Workplace) (settings : Settings) (request : OutlookRequest) :
    Except CommandFailure Ending := do
  let options := { MigrationOptions.ofSettings settings with component := request.component }
  let analysis ← (MigrationAnalysis.ofProject (MigrationRule.configured settings) options
    place.tree (place.pathOf request.path)).mapError (.project "Migration analysis failed")
  return place.reporting request.report analysis.toJson
    (place.printing (.lines (analysisLines analysis)) true)

def afterBatch (place : Workplace) (after : FileTree) (summary : BatchSummary) : Ending :=
  { place with tree := after }.printing (.lines (batchLines summary)) summary.errors.isEmpty

def upgradeOptions (settings : Settings) (request : UpgradeRequest) : MigrationOptions :=
  let options := MigrationOptions.ofSettings settings
  { options with
    component := request.component
    dryRun := request.dryRun
    backup := options.backup && !request.withoutBackup
    scanner := options.scanner.withPatterns request.included request.excluded }

def upgrade (place : Workplace) (settings : Settings) (request : UpgradeRequest) :
    Except CommandFailure Ending := do
  let (after, summary) ← (Pipeline.migrateProject (MigrationRule.configured settings)
    (upgradeOptions settings request) place.tree (place.pathOf request.path)).mapError
      (.project "Migration failed")
  return place.afterBatch after summary

def ruleIds (text : String) : List String :=
  ((Path.splitAt ',' text.toList).map (Text.trimBoth Text.isBlank)).filterMap fun id =>
    if id.isEmpty then none else some (String.ofList id)

def batchOptions (settings : Settings) (request : BatchRequest) : MigrationOptions :=
  { MigrationOptions.ofSettings settings with
    ruleIds := request.rules.map ruleIds
    excludeComplex := request.excludeComplex
    dryRun := request.dryRun }

def batch (place : Workplace) (settings : Settings) (request : BatchRequest) :
    Except CommandFailure Ending := do
  let (after, summary) ← (Pipeline.migrateBatch (MigrationRule.configured settings)
    (batchOptions settings request) place.tree (place.pathOf request.path)).mapError
      (.project "Batch migration failed")
  return place.reporting request.report summary.toJson (place.afterBatch after summary)

def begin (place : Workplace) (force : Bool) : Except CommandFailure Ending := do
  let path := place.pathOf Settings.fileName
  if (place.tree.isFile path || place.tree.isDirectory path) && !force then
    throw .settingsExist
  match place.tree.write path (.text settingsTemplate.toList) with
  | (after, none) => return { place with tree := after }.printing (.lines beginLines) true
  | (after, some error) => return { place with tree := after }.failing (.file error)

def runCommand (place : Workplace) (invocation : Invocation) : Except CommandFailure Ending := do
  let settings (path : String) := place.settings path invocation.settings
  match invocation.command with
  | .scan request => place.scan (← settings request.path) invocation.verbose request
  | .analyze request => place.analyze (← settings request.path) request
  | .outlook request => place.outlook (← settings request.path) request
  | .upgrade request => place.upgrade (← settings request.path) request
  | .batch request => place.batch (← settings request.path) request
  | .listRules => return place.printing (.lines ruleListLines) true
  | .begin force => place.begin force

def run (place : Workplace) (invocation : Invocation) : Ending :=
  match place.runCommand invocation with
  | .ok ending => ending
  | .error failure => place.failing failure

def refuse (place : Workplace) : Refusal → Ending
  | .help => place.printing (.lines usageLines) true
  | .version => place.printing (.lines versionLines) true
  | .misuse => { place.printing (.lines []) true with notes := usageLines, exitCode := 2 }

def respond (place : Workplace) (environment : Option String) (arguments : List String) : Ending :=
  match Invocation.read environment arguments with
  | .ok invocation => place.run invocation
  | .error refusal => place.refuse refusal

end Workplace

end ComponentSurvey.CommandLine
