import ComponentSurvey.Migration.Rule
import ComponentSurvey.Settings.Basic

/-!
# The migration pipeline

The rules are run in their order.  Each sees the text that the last successful one left; one that
fails leaves the text as it is and is reported.
-/

namespace ComponentSurvey

structure MigrationOptions where
  /-- Only rules for this component are run. -/
  component : Option String
  ruleIds : Option (List String)
  excludeComplex : Bool
  dryRun : Bool
  backup : Bool
  failurePolicy : FailurePolicy
  scanner : ScannerSettings
deriving DecidableEq, Repr

namespace MigrationOptions

def ofSettings (settings : Settings) : MigrationOptions :=
  { component := none
    ruleIds := none
    excludeComplex := false
    dryRun := false
    backup := settings.migration.backup
    failurePolicy := settings.migration.failurePolicy
    scanner := settings.scanner }

instance : Inhabited MigrationOptions := ⟨ofSettings default⟩

def allowsRule (options : MigrationOptions) (id : String) : Bool :=
  options.ruleIds.all fun ids => ids.contains id

end MigrationOptions

/-- The shipped rules without those that the settings switch off. -/
def MigrationRule.configured (settings : Settings) : List MigrationRule :=
  MigrationRule.shipped.filter fun rule => settings.isRuleEnabled rule.id

namespace Pipeline

def appliesTo (options : MigrationOptions) (code : List Char) (rule : MigrationRule) : Bool :=
  options.component.all rule.targets && options.allowsRule rule.id && rule.isMentioned code

structure Progress where
  code : List Char
  changes : List Change
  errors : List RuleFailure
  warnings : List String
deriving DecidableEq, Repr, Inhabited

namespace Progress

def start (source : List Char) : Progress := ⟨source, [], [], []⟩

def takeUp (progress : Progress) (id : String) (outcome : Outcome RuleError) : Progress :=
  let warnings := progress.warnings ++ outcome.warnings
  match outcome.code with
  | some code =>
    { progress with code, changes := progress.changes ++ outcome.changes, warnings }
  | none =>
    { progress with
      errors := progress.errors ++ outcome.errors.map fun error => ⟨id, error⟩
      warnings }

def step (options : MigrationOptions) (path : String) (progress : Progress)
    (rule : MigrationRule) : Progress :=
  if appliesTo options progress.code rule then
    progress.takeUp rule.id (rule.apply path progress.code)
  else progress

/-- A rollback gives up the text and its changes once a rule has failed. -/
def finish (policy : FailurePolicy) (progress : Progress) : Outcome RuleFailure :=
  if policy = .rollbackFile && !progress.errors.isEmpty then
    ⟨none, [], progress.errors, progress.warnings⟩
  else ⟨some progress.code, progress.changes, progress.errors, progress.warnings⟩

end Progress

def run (rules : List MigrationRule) (options : MigrationOptions) (path : String)
    (source : List Char) : Progress :=
  rules.foldl (Progress.step options path) (.start source)

def migrate (rules : List MigrationRule) (options : MigrationOptions) (path : String)
    (source : List Char) : Outcome RuleFailure :=
  (run rules options path source).finish options.failurePolicy

end Pipeline

end ComponentSurvey
