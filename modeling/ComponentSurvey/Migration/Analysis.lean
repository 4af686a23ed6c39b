import ComponentSurvey.Migration.Pipeline
import ComponentSurvey.Survey.Scan

/-!
# Analyzing a migration

Which usages of a project the rules would move to the second generation, and how much work that is.
-/

namespace ComponentSurvey

structure MigrationIssue where
  file : String
  component : String
  rule : String
  complexity : MigrationComplexity
  description : String
deriving DecidableEq, Repr, Inhabited

structure MigrationAnalysis where
  totalFiles : Nat
  migrableFiles : Nat
  issues : List MigrationIssue
deriving DecidableEq, Repr, Inhabited

namespace MigrationIssue

def toJson (issue : MigrationIssue) : Json :=
  .object [("file", .string issue.file), ("component", .string issue.component),
    ("rule", .string issue.rule), ("complexity", .string issue.complexity.label),
    ("description", .string issue.description)]

def ofUsage (usage : Usage) (rule : MigrationRule) : MigrationIssue :=
  { file := usage.file
    component := usage.name
    rule := rule.id
    complexity := .ofCounts usage.issues.length usage.props.length
    description := rule.description }

end MigrationIssue

namespace MigrationOptions

def search (options : MigrationOptions) (tree : FileTree) (root : String) :
    Except ProjectError Search :=
  Search.begin tree root options.scanner.withDefaultPatterns

def allowsComponent (options : MigrationOptions) (name : String) : Bool :=
  options.component.all fun component => component = name

end MigrationOptions

namespace MigrationAnalysis

def effort (analysis : MigrationAnalysis) : Effort := .ofIssues analysis.issues.length

def count (analysis : MigrationAnalysis) (complexity : MigrationComplexity) : Nat :=
  analysis.issues.countP fun issue => issue.complexity = complexity

/-- One issue for each usage that should be migrated and each rule for its component. -/
def ofSurvey (rules : List MigrationRule) (options : MigrationOptions) (survey : Survey) :
    MigrationAnalysis :=
  let candidates := survey.usages.filter fun usage =>
    usage.isCandidate && options.allowsComponent usage.name
  { totalFiles := survey.statistics.filesScanned
    migrableFiles := (Order.distinctBy Path.isSame (candidates.map Usage.file)).length
    issues := candidates.flatMap fun usage =>
      (rules.filter fun rule => rule.targets usage.name).map (MigrationIssue.ofUsage usage) }

def ofProject (rules : List MigrationRule) (options : MigrationOptions) (tree : FileTree)
    (root : String) : Except ProjectError MigrationAnalysis := do
  let search ← options.search tree root
  let scanner : Scanner := { search := search, battery := Predicate.standard }
  return ofSurvey rules options (scanner.scan tree)

def toJson (analysis : MigrationAnalysis) : Json :=
  .object [("schemaVersion", Json.nat schemaVersion),
    ("totalFiles", Json.nat analysis.totalFiles),
    ("migrableFiles", Json.nat analysis.migrableFiles),
    ("issues", .array (analysis.issues.map MigrationIssue.toJson)),
    ("estimatedEffort", .string analysis.effort.label)]

/-- The files to migrate in a batch, in the order of the issues. -/
def selectedFiles (analysis : MigrationAnalysis) (options : MigrationOptions) : List String :=
  let selected := analysis.issues.filter fun issue =>
    !(options.excludeComplex && issue.complexity = .complex) && options.allowsRule issue.rule
  Order.distinctBy Path.isSame (selected.map MigrationIssue.file)

end MigrationAnalysis

end ComponentSurvey
