import ComponentSurvey.Survey.Dependencies
import ComponentSurvey.Survey.Failure
import ComponentSurvey.Survey.Summary
import ComponentSurvey.Path.Basic

/-!
# Surveys

What a scan of a project found.  The summaries are functions of the usages.  A result keeps them
beside the lists of its survey and makes them anew whenever the lists have changed.
-/

namespace ComponentSurvey

def schemaVersion : Nat := 1

structure Survey where
  root : String
  /-- In the order of the files, and of the text within a file. -/
  usages : List Usage
  scannedFiles : List String
  failures : List FileFailure
  dependencies : DependencyReport
deriving DecidableEq, Repr, Inhabited

namespace Survey

def statistics (survey : Survey) : Statistics :=
  .ofUsages survey.usages survey.scannedFiles.length survey.failures.length

def patterns (survey : Survey) : PatternSummary := .ofUsages survey.usages

def migration (survey : Survey) : MigrationSummary := .ofUsages survey.usages

def usagesIn (survey : Survey) (file : String) : List Usage :=
  survey.usages.filter fun usage => Path.isSame usage.file file

def hasErrors (survey : Survey) : Bool :=
  !survey.failures.isEmpty || survey.usages.any fun usage => 0 < usage.issueCount .error

def issues (survey : Survey) : List (Usage × Issue) :=
  survey.usages.flatMap fun usage => usage.issues.map fun issue => (usage, issue)

end Survey

/-- A survey with the summaries that were made of it last. -/
structure SurveyResult where
  survey : Survey
  statistics : Statistics
  patterns : PatternSummary
  migration : MigrationSummary
deriving DecidableEq, Repr, Inhabited

namespace SurveyResult

def refold (result : SurveyResult) : SurveyResult :=
  { result with
    statistics := result.survey.statistics
    patterns := result.survey.patterns
    migration := result.survey.migration }

def ofSurvey (survey : Survey) : SurveyResult := refold ⟨survey, default, default, default⟩

def advice (result : SurveyResult) : List String :=
  (if 0 < result.statistics.issuesFound then
    [s!"Fix {result.statistics.issuesFound} component issues found"] else []) ++
  (if 0 < result.statistics.filesFailed then
    [s!"Resolve syntax errors in {result.statistics.filesFailed} file(s)"] else []) ++
  (if !result.migration.candidates.isEmpty then
    ["Consider migrating to DataSource V2 for better performance"] else []) ++
  (if !result.survey.dependencies.missing.isEmpty then
    ["Install recommended dependencies for better integration"] else []) ++
  (if !result.patterns.recommended.isEmpty then
    ["Implement recommended patterns for better maintainability"] else [])

def members (result : SurveyResult) : List (String × Json) := [
  ("schemaVersion", Json.nat schemaVersion),
  ("root", .string result.survey.root),
  ("components", .array (result.survey.usages.map Usage.toJson)),
  ("scannedFiles", Json.strings result.survey.scannedFiles),
  ("failures", .array (result.survey.failures.map FileFailure.toJson)),
  ("statistics", result.statistics.toJson),
  ("patterns", result.patterns.toJson),
  ("migration", result.migration.toJson),
  ("dependencies", result.survey.dependencies.toJson)]

end SurveyResult

namespace Survey

def advice (survey : Survey) : List String := (SurveyResult.ofSurvey survey).advice

def members (survey : Survey) : List (String × Json) := (SurveyResult.ofSurvey survey).members

def toJson (survey : Survey) : Json := .object survey.members

end Survey

end ComponentSurvey
