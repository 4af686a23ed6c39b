import ComponentSurvey.Facts.Json
import ComponentSurvey.Library.Components
import ComponentSurvey.Library.Rating
import ComponentSurvey.Order.Distinct
import ComponentSurvey.Order.Total

/-!
# Summaries of usages

Counters, project patterns and the outlook on a migration.  All of them are functions of the
usages alone.
-/

namespace ComponentSurvey

structure Statistics where
  totalComponents : Nat
  libraryComponents : Nat
  firstGeneration : Nat
  secondGeneration : Nat
  filesScanned : Nat
  filesFailed : Nat
  issuesFound : Nat
deriving DecidableEq, Repr, Inhabited

def issueTotal (usages : List Usage) : Nat :=
  Order.total (fun usage => usage.issues.length) usages

namespace Statistics

def ofUsages (usages : List Usage) (filesScanned filesFailed : Nat) : Statistics :=
  { totalComponents := usages.length
    libraryComponents := usages.countP fun usage => usage.importResolved
    firstGeneration := usages.countP fun usage => usage.generation = .v1
    secondGeneration := usages.countP fun usage => usage.generation = .v2
    filesScanned := filesScanned
    filesFailed := filesFailed
    issuesFound := issueTotal usages }

def toJson (statistics : Statistics) : Json :=
  .object [
    ("totalComponents", Json.nat statistics.totalComponents),
    ("archbaseComponents", Json.nat statistics.libraryComponents),
    ("v1Components", Json.nat statistics.firstGeneration),
    ("v2Components", Json.nat statistics.secondGeneration),
    ("filesScanned", Json.nat statistics.filesScanned),
    ("filesFailed", Json.nat statistics.filesFailed),
    ("issuesFound", Json.nat statistics.issuesFound)]

end Statistics

structure PatternSummary where
  detected : List String
  missing : List String
  recommended : List String
deriving DecidableEq, Repr, Inhabited

def usesComponent (usages : List Usage) (name : String) : Bool :=
  usages.any fun usage => usage.name = name

/-- A pattern is there when all its components are used, or when a usage is tagged with it. -/
def isDetected (usages : List Usage) (pattern : Library.ProjectPattern) : Bool :=
  (pattern.components.all fun component => usesComponent usages component) ||
    usages.any fun usage => usage.hasPattern pattern.name

def suggestedPatterns : List (String × String) := [
  ("ArchbaseFormTemplate", "form-with-datasource"),
  ("ArchbaseDataGrid", "crud-with-datagrid")]

namespace PatternSummary

def ofUsages (usages : List Usage) : PatternSummary :=
  let detected := (Library.projectPatterns.filter (isDetected usages)).map (·.name)
  let suggested := suggestedPatterns.filter fun entry => usesComponent usages entry.1
  let recommended := (suggested.map Prod.snd).filter fun name => !detected.contains name
  let missing := (Library.projectPatterns.map (·.name)).filter fun name =>
    !detected.contains name && !recommended.contains name
  ⟨Order.textSet detected, Order.textSet missing, Order.textSet recommended⟩

def toJson (summary : PatternSummary) : Json :=
  .object [("detected", Json.strings summary.detected),
    ("missing", Json.strings summary.missing),
    ("recommended", Json.strings summary.recommended)]

end PatternSummary

namespace Usage

def isCandidate (usage : Usage) : Bool :=
  (usage.generation = .v1 || usage.generation = .unknown) && Library.isMigratable usage.name

end Usage

structure MigrationSummary where
  candidates : List Usage
  effort : Effort
  recommendations : List String
deriving DecidableEq, Repr, Inhabited

namespace MigrationSummary

def ofUsages (usages : List Usage) : MigrationSummary :=
  let candidates := usages.filter Usage.isCandidate
  let toMigrate :=
    if candidates.isEmpty then []
    else
      [s!"Migrate {candidates.length} components to DataSource V2",
        "Use ArchbaseRemoteDataSource for better performance",
        "Implement reactive data binding patterns"]
  let lacksFeedback := usages.any fun usage =>
    usage.name = "ArchbaseFormTemplate" && !usage.hasPattern "validation-with-feedback"
  let toAdd := if lacksFeedback then ["Add validation feedback to forms"] else []
  ⟨candidates, Effort.ofIssues (issueTotal usages), toMigrate ++ toAdd⟩

def toJson (summary : MigrationSummary) : Json :=
  .object [("v1ToV2Candidates", .array (summary.candidates.map Usage.toJson)),
    ("estimatedEffort", .string summary.effort.label),
    ("recommendations", Json.strings summary.recommendations)]

end MigrationSummary

end ComponentSurvey
