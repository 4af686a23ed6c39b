import ComponentSurvey.Migration.Batch
import ComponentSurvey.Patterns.Project

/-!
# Results as text

The lines in which results are printed.  Colours are those of terminals.
-/

namespace ComponentSurvey.CommandLine

inductive Colour
  | red | green | yellow | blue
deriving DecidableEq, Repr, Inhabited

namespace Colour

def code : Colour → String
  | red => "31"
  | green => "32"
  | yellow => "33"
  | blue => "34"

def paint (colour : Colour) (text : String) : String :=
  "\x1b[" ++ colour.code ++ "m" ++ text ++ "\x1b[0m"

end Colour

def column (width : Nat) (text : String) : String :=
  text ++ String.ofList (List.replicate (width - text.length) ' ')

def headed (heading : String) (lines : List String) : List String :=
  if lines.isEmpty then [] else ["", heading] ++ lines

def severityText : Severity → String
  | .error => Colour.red.paint "error"
  | .warning => Colour.yellow.paint "warning"
  | .suggestion => Colour.blue.paint "suggestion"

/-- Where an issue is: at its own place or at that of its usage. -/
def issuePlace (usage : Usage) (issue : Issue) : String :=
  s!"{usage.file}:{issue.line.getD usage.line}:{issue.column.getD usage.column}"

def issueLines (entry : Usage × Issue) : List String :=
  let (usage, issue) := entry
  [s!"{usage.name} at {issuePlace usage issue}",
    s!"  {severityText issue.severity}: {issue.message}"] ++
    (issue.fix.map fun fix => s!"  = help: {fix}").toList ++ [""]

def failureText (failure : FileFailure) : String :=
  match failure.cause with
  | .unparsed => "syntax error"
  | .stated message => message

def failureLine (failure : FileFailure) : String :=
  let mark := Colour.red.paint "failed"
  s!"{mark} {failure.file}: {failureText failure}"

def countLine (statistics : Statistics) : String :=
  s!"Components: {statistics.totalComponents} ({statistics.libraryComponents} Archbase), " ++
    s!"DataSource V1: {statistics.firstGeneration}, V2: {statistics.secondGeneration}"

def surveyColour (survey : Survey) : Colour :=
  if survey.hasErrors then .red
  else if 0 < survey.statistics.issuesFound then .yellow
  else .green

def surveyLines (survey : Survey) : List String :=
  let statistics := survey.statistics
  let detected := survey.patterns.detected
  let migration := survey.migration
  survey.issues.flatMap issueLines ++
  survey.failures.map failureLine ++
  [countLine statistics] ++
  (if detected.isEmpty then [] else ["Patterns: " ++ ", ".intercalate detected]) ++
  [s!"Migration: {migration.candidates.length} candidate(s), " ++
    s!"estimated effort {migration.effort.label}"] ++
  (survey.dependencies.libraryVersion.map fun version =>
    s!"{Library.libraryModule}: {version}").toList ++
  (survey.dependencies.missing.map fun package => s!"Missing dependency: {package}") ++
  headed "Recommendations:" (survey.advice.map fun advice => s!"  - {advice}") ++
  ["", (surveyColour survey).paint
    (s!"Found {statistics.issuesFound} issue(s) in {statistics.filesScanned} file(s), " ++
      s!"{statistics.filesFailed} file(s) failed")]

def compactIssueLine (entry : Usage × Issue) : String :=
  let (usage, issue) := entry
  s!"{issuePlace usage issue}: {issue.severity.label} [{usage.name}] {issue.message}"

/-- A failure without a place of its own is reported at the beginning of the file. -/
def compactFailureLine (failure : FileFailure) : String :=
  s!"{failure.file}:1:0: failed {failureText failure}"

def compactSurveyLines (survey : Survey) : List String :=
  survey.issues.map compactIssueLine ++ survey.failures.map compactFailureLine

def patternLine (pattern : DetectedPattern) : String :=
  s!"  {column 40 pattern.name} {column 8 pattern.priority.label} " ++
    s!"x{column 4 (toString pattern.count)} {pattern.description}"

def dataSourceLine (group : DataSourceGroup) : String :=
  s!"  {column 28 group.component} {column 8 group.generation.label} x{group.count}"

def formLine (group : FormGroup) : String :=
  s!"  {group.validation.label} / {group.layout} / {group.complexity.label} x{group.count}"

def recommendationLine (recommendation : Recommendation) : String :=
  s!"  [{recommendation.priority.label}] {recommendation.title}: {recommendation.description}"

def reportLines (report : PatternReport) : List String :=
  let findings := report.findings
  [s!"Analyzed {findings.filesAnalyzed} file(s), {findings.failures.length} failed"] ++
  headed "Patterns:" (findings.patterns.map patternLine) ++
  headed "DataSource usage:" (findings.dataSources.map dataSourceLine) ++
  headed "Forms:" (findings.forms.map formLine) ++
  headed "Recommendations:" (report.recommendations.map recommendationLine)

def compactReportLines (report : PatternReport) : List String :=
  (report.findings.patterns.map fun pattern =>
    s!"{pattern.name} [{pattern.priority.label}] x{pattern.count}") ++
  report.recommendations.map fun recommendation =>
    s!"{recommendation.rule} [{recommendation.priority.label}] {recommendation.title}"

def migrationIssueLine (issue : MigrationIssue) : String :=
  s!"  {issue.file}: {issue.component} [{issue.rule}] {issue.description} " ++
    s!"({issue.complexity.label})"

def analysisLines (analysis : MigrationAnalysis) : List String :=
  (s!"{analysis.migrableFiles} of {analysis.totalFiles} file(s) need migration, " ++
    s!"{analysis.issues.length} issue(s), estimated effort {analysis.effort.label}") ::
  analysis.issues.map migrationIssueLine

def changeLine (change : Change) : String :=
  match change.position with
  | some (line, _) => s!"  {line}: {change.description}"
  | none => s!"  {change.description}"

def fileLines (migration : FileMigration) : List String :=
  let state := if migration.written then "migrated" else "pending"
  [s!"{migration.file} ({migration.changes.length} change(s), {state})"] ++
  migration.changes.map changeLine ++
  migration.warnings.map fun warning => s!"  {severityText .warning}: {warning}"

def batchLines (summary : BatchSummary) : List String :=
  let mode := if summary.dryRun then " (dry run)" else ""
  summary.files.flatMap fileLines ++
  (summary.errors.map fun error => s!"{severityText .error}: {error}") ++
  ["", s!"{summary.filesMigrated} of {summary.filesProcessed} file(s) changed, " ++
    s!"{summary.totalChanges} change(s){mode}"]

def ruleColumns (id kind versions description : String) : String :=
  s!"{column 26 id} {column 13 kind} {column 10 versions} {description}"

def ruleLines (rule : MigrationRule) : List String :=
  [ruleColumns rule.id rule.transform.label s!"{rule.fromVersion}->{rule.toVersion}"
      rule.description,
    column 26 "" ++ " components: " ++ ", ".intercalate rule.components]

def ruleListLines : List String :=
  ["Migration rules:", "", ruleColumns "Id" "Kind" "Versions" "Description",
    String.ofList (List.replicate 90 '-')] ++
  MigrationRule.shipped.flatMap ruleLines ++
  ["", "Recommendation rules:", ""] ++
  (RecommendationRule.standard.map fun rule => s!"  {rule.id}") ++
  ["", "Disable a migration rule in archbase.toml:", "  [rules.event-handler-upgrade]",
    "  enabled = false", "", "Use --rules to run specific rules, e.g.:",
    "  archbase migrate batch --rules datasource-v1-to-v2"]

def beginLines : List String := [
  s!"Created {Settings.fileName}",
  "",
  "Next steps:",
  s!"  1. Edit {Settings.fileName} to configure discovery and rules",
  "  2. Run: archbase scan",
  "  3. Run: archbase migrate analyze"]

end ComponentSurvey.CommandLine
