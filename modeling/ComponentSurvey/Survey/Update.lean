import ComponentSurvey.Order.Partition
import ComponentSurvey.Survey.Basic

/-!
# Updating a survey

What is known about one file is replaced; the other files keep what they have.  New usages go
where a scan would have put them.
-/

namespace ComponentSurvey

inductive FileResult
  | analyzed (usages : List Usage)
  | failed (failure : FileFailure)
  /-- The file does not belong to the project any more. -/
  | removed
deriving DecidableEq, Repr, Inhabited

structure UpdateReport where
  file : String
  previousIssues : Nat
  currentIssues : Nat
  /-- Tags on the usages of the file, in the order of their names. -/
  patterns : List String
deriving DecidableEq, Repr, Inhabited

namespace UpdateReport

def newIssues (report : UpdateReport) : Nat := report.currentIssues - report.previousIssues

def fixedIssues (report : UpdateReport) : Nat := report.previousIssues - report.currentIssues

def toJson (report : UpdateReport) : Json :=
  .object [("file", .string report.file),
    ("previousIssues", Json.nat report.previousIssues),
    ("currentIssues", Json.nat report.currentIssues),
    ("newIssues", Json.nat report.newIssues),
    ("fixedIssues", Json.nat report.fixedIssues),
    ("patterns", Json.strings report.patterns)]

end UpdateReport

namespace Survey

def without (survey : Survey) (file : String) : Survey :=
  { survey with
    usages := survey.usages.filter fun usage => !Path.isSame usage.file file
    scannedFiles := survey.scannedFiles.filter fun other => !Path.isSame other file
    failures := survey.failures.filter fun failure => !Path.isSame failure.file file }

def insertByFile {α : Type} (fileOf : α → String) (file : String) (values added : List α) :
    List α :=
  Order.insertAt values
    (Order.partitionPoint (fun value => Path.isLess (fileOf value) file) values) added

def record (survey : Survey) (file : String) : FileResult → Survey
  | .analyzed usages =>
    { survey with
      usages := insertByFile Usage.file file survey.usages usages
      scannedFiles := insertByFile id file survey.scannedFiles [file] }
  | .failed failure =>
    { survey with
      failures := insertByFile FileFailure.file failure.file survey.failures [failure] }
  | .removed => survey

def replaceFile (survey : Survey) (file : String) (result : FileResult) : Survey :=
  (survey.without file).record file result

def updateReport (before after : Survey) (file : String) : UpdateReport :=
  { file := file
    previousIssues := issueTotal (before.usagesIn file)
    currentIssues := issueTotal (after.usagesIn file)
    patterns := Order.textSet ((after.usagesIn file).flatMap Usage.patterns) }

def update (survey : Survey) (file : String) (result : FileResult) : Survey × UpdateReport :=
  let after := survey.replaceFile file result
  (after, updateReport survey after file)

end Survey

namespace SurveyResult

/-- The summaries that were kept do not count. -/
def replaceFile (result : SurveyResult) (file : String) (known : FileResult) :
    SurveyResult × UpdateReport :=
  let (after, report) := result.survey.update file known
  (refold { result with survey := after }, report)

end SurveyResult

end ComponentSurvey
