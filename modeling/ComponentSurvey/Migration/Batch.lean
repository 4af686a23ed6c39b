import ComponentSurvey.Migration.Analysis

/-!
# Migrating files

The files of a run are migrated one after the other in the same tree.  A file that changes is
written back, after a copy of it if one is wanted; a file that cannot be read or written is
reported and does not stop the run.  The summary of a run is a function of its steps.
-/

namespace ComponentSurvey

structure MigrationError where
  path : String
  error : FileError
deriving DecidableEq, Repr, Inhabited

def MigrationError.message (failure : MigrationError) : String :=
  s!"IO error on {failure.path}: {failure.error.message}"

def backupPath (path : String) : String := path ++ ".backup"

namespace Pipeline

/-- Migrates what a file holds; the tree stays as it is. -/
def migrateFile (rules : List MigrationRule) (options : MigrationOptions) (tree : FileTree)
    (path : String) : Except MigrationError (Outcome RuleFailure) :=
  match tree.readText path with
  | .error error => .error ⟨path, error⟩
  | .ok source => .ok (migrate rules options path source)

end Pipeline

inductive SaveResult
  | nothing
  | written
  | failed (error : MigrationError)
deriving DecidableEq, Repr, Inhabited

namespace SaveResult

def isWritten (result : SaveResult) : Bool := result = written

def error? : SaveResult → Option MigrationError
  | failed error => some error
  | _ => none

end SaveResult

namespace FileTree

def replace (tree : FileTree) (path : String) (code : List Char) : FileTree × SaveResult :=
  match tree.write path (.text code) with
  | (after, none) => (after, .written)
  | (after, some error) => (after, .failed ⟨path, error⟩)

/-- Writes the code of an outcome, after a copy of the file if one is wanted. -/
def save (tree : FileTree) (path : String) (code : Option (List Char)) (backup : Bool) :
    FileTree × SaveResult :=
  match code with
  | none => (tree, .nothing)
  | some code =>
    if backup then
      match tree.copy path (backupPath path) with
      | (copied, none) => copied.replace path code
      | (after, some error) => (after, .failed ⟨backupPath path, error⟩)
    else tree.replace path code

end FileTree

inductive MigrationStep
  | unread (file : String) (error : MigrationError)
  | processed (file : String) (outcome : Outcome RuleFailure) (saved : SaveResult)
deriving DecidableEq, Repr, Inhabited

namespace MigrationStep

def isProcessed : MigrationStep → Bool
  | processed _ _ _ => true
  | unread _ _ => false

def hasChanges : MigrationStep → Bool
  | processed _ outcome _ => outcome.hasChanges
  | unread _ _ => false

def changes : MigrationStep → List Change
  | processed _ outcome _ => if outcome.hasChanges then outcome.changes else []
  | unread _ _ => []

/-- The errors of a step: first the one of writing, then those of the rules. -/
def errors : MigrationStep → List String
  | unread file error => [s!"Failed to migrate {file}: {error.message}"]
  | processed file outcome saved =>
    saved.error?.toList.map MigrationError.message ++
      outcome.errors.map fun failure => s!"{file}: {failure.message}"

end MigrationStep

namespace Pipeline

/-- Migrates one file of a run; only a file with changes is written, and none in a dry run. -/
def step (rules : List MigrationRule) (options : MigrationOptions) (root : String)
    (tree : FileTree) (file : String) : FileTree × MigrationStep :=
  let path := Path.join root file
  match migrateFile rules options tree path with
  | .error error => (tree, .unread file error)
  | .ok outcome =>
    if outcome.hasChanges && !options.dryRun then
      let (after, saved) := tree.save path outcome.code options.backup
      (after, .processed file outcome saved)
    else (tree, .processed file outcome .nothing)

def steps (rules : List MigrationRule) (options : MigrationOptions) (root : String) :
    FileTree → List String → FileTree × List MigrationStep
  | tree, [] => (tree, [])
  | tree, file :: files =>
    let (after, first) := step rules options root tree file
    let (final, others) := steps rules options root after files
    (final, first :: others)

end Pipeline

structure FileMigration where
  file : String
  changes : List Change
  warnings : List String
  errors : List String
  written : Bool
deriving DecidableEq, Repr, Inhabited

namespace FileMigration

def ofStep? : MigrationStep → Option FileMigration
  | .unread _ _ => none
  | .processed file outcome saved =>
    if outcome.hasChanges || !outcome.errors.isEmpty || !outcome.warnings.isEmpty then
      some ⟨file, outcome.changes, outcome.warnings, outcome.errors.map RuleFailure.message,
        saved.isWritten⟩
    else none

def toJson (migration : FileMigration) : Json :=
  .object [("file", .string migration.file),
    ("changes", .array (migration.changes.map Change.toJson)),
    ("warnings", Json.strings migration.warnings), ("errors", Json.strings migration.errors),
    ("written", .bool migration.written)]

end FileMigration

structure BatchSummary where
  dryRun : Bool
  /-- The analysis that the files were chosen by. -/
  analysis : Option MigrationAnalysis
  files : List FileMigration
  filesProcessed : Nat
  filesMigrated : Nat
  totalChanges : Nat
  errors : List String
deriving DecidableEq, Repr, Inhabited

namespace BatchSummary

def ofSteps (dryRun : Bool) (analysis : Option MigrationAnalysis) (steps : List MigrationStep) :
    BatchSummary :=
  { dryRun := dryRun
    analysis := analysis
    files := steps.filterMap FileMigration.ofStep?
    filesProcessed := steps.countP MigrationStep.isProcessed
    filesMigrated := steps.countP MigrationStep.hasChanges
    totalChanges := Order.total (fun step => step.changes.length) steps
    errors := steps.flatMap MigrationStep.errors }

def toJson (summary : BatchSummary) : Json :=
  .object <|
    [("schemaVersion", Json.nat schemaVersion), ("dryRun", .bool summary.dryRun)] ++
    Json.optional "analysis" (summary.analysis.map MigrationAnalysis.toJson) ++
    [("files", .array (summary.files.map FileMigration.toJson)),
      ("filesProcessed", Json.nat summary.filesProcessed),
      ("filesMigrated", Json.nat summary.filesMigrated),
      ("totalChanges", Json.nat summary.totalChanges),
      ("errors", Json.strings summary.errors)]

end BatchSummary

namespace Pipeline

def migrateFiles (rules : List MigrationRule) (options : MigrationOptions) (root : String)
    (analysis : Option MigrationAnalysis) (tree : FileTree) (files : List String) :
    FileTree × BatchSummary :=
  let (after, done) := steps rules options root tree files
  (after, .ofSteps options.dryRun analysis done)

def migrateProject (rules : List MigrationRule) (options : MigrationOptions) (tree : FileTree)
    (root : String) : Except ProjectError (FileTree × BatchSummary) := do
  let search ← options.search tree root
  return migrateFiles rules options root none tree (search.discover tree)

def migrateBatch (rules : List MigrationRule) (options : MigrationOptions) (tree : FileTree)
    (root : String) : Except ProjectError (FileTree × BatchSummary) := do
  let analysis ← MigrationAnalysis.ofProject rules options tree root
  return migrateFiles rules options root (some analysis) tree (analysis.selectedFiles options)

end Pipeline

end ComponentSurvey
