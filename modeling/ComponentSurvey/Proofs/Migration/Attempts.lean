import ComponentSurvey.Migration.Pipeline

/-!
# The attempts of a run

A run attempts each rule that applies to the text reached so far.  What the run
comes to is told by its attempts: a successful one hands on its text and changes, a
failed one leaves only its errors and warnings.
-/

namespace ComponentSurvey.Pipeline

/-- What one rule came to when it was its turn. -/
structure Attempt where
  rule : String
  outcome : Outcome RuleError

namespace Attempt

def succeeded (attempt : Attempt) : Bool := attempt.outcome.succeeded

def changes (attempt : Attempt) : List Change :=
  if attempt.succeeded then attempt.outcome.changes else []

def errors (attempt : Attempt) : List RuleFailure :=
  if attempt.succeeded then []
  else attempt.outcome.errors.map fun error => ⟨attempt.rule, error⟩

def warnings (attempt : Attempt) : List String := attempt.outcome.warnings

/-- The text that the next rule gets. -/
def handOn (code : List Char) (attempt : Attempt) : List Char :=
  attempt.outcome.code.getD code

theorem handOn_of_failed {attempt : Attempt} (failed : attempt.succeeded = false)
    (code : List Char) : attempt.handOn code = code := by
  rw [succeeded, Outcome.succeeded, Option.isSome_eq_false_iff,
    Option.isNone_iff_eq_none] at failed
  rw [handOn, failed, Option.getD_none]

end Attempt

variable (options : MigrationOptions) (path : String)

def attempt (code : List Char) (rule : MigrationRule) : Attempt :=
  ⟨rule.id, rule.apply path code⟩

def attempts : List Char → List MigrationRule → List Attempt
  | _, [] => []
  | code, rule :: rest =>
    if appliesTo options code rule then
      let made := attempt path code rule
      made :: attempts (made.handOn code) rest
    else attempts code rest

def withoutFailed : List Char → List MigrationRule → List MigrationRule
  | _, [] => []
  | code, rule :: rest =>
    if appliesTo options code rule then
      let made := attempt path code rule
      if made.succeeded then rule :: withoutFailed (made.handOn code) rest
      else withoutFailed code rest
    else rule :: withoutFailed code rest

def codeAfter (code : List Char) (made : List Attempt) : List Char :=
  made.foldl Attempt.handOn code

/-- What a run that has come this far comes to by further attempts. -/
def Progress.extend (progress : Progress) (made : List Attempt) : Progress :=
  { code := codeAfter progress.code made
    changes := progress.changes ++ made.flatMap Attempt.changes
    errors := progress.errors ++ made.flatMap Attempt.errors
    warnings := progress.warnings ++ made.flatMap Attempt.warnings }

theorem takeUp_eq_extend (progress : Progress) (id : String)
    (outcome : Outcome RuleError) :
    progress.takeUp id outcome = progress.extend [⟨id, outcome⟩] := by
  obtain ⟨code, changes, errors, warnings⟩ := outcome
  cases code <;>
    simp [Progress.takeUp, Progress.extend, codeAfter, Attempt.handOn,
      Attempt.changes, Attempt.errors, Attempt.warnings, Attempt.succeeded,
      Outcome.succeeded]

theorem extend_extend (progress : Progress) (first second : List Attempt) :
    (progress.extend first).extend second = progress.extend (first ++ second) := by
  simp [Progress.extend, codeAfter]

theorem foldl_step (progress : Progress) (rules : List MigrationRule) :
    rules.foldl (Progress.step options path) progress =
      progress.extend (attempts options path progress.code rules) := by
  induction rules generalizing progress with
  | nil => simp [attempts, Progress.extend, codeAfter]
  | cons rule rest ih =>
      rw [List.foldl_cons, ih, Progress.step, attempts]
      split
      · rw [takeUp_eq_extend, extend_extend]
        rfl
      · rfl

def keep (source : List Char) (made : List Attempt) : Outcome RuleFailure :=
  { code := some (codeAfter source made)
    changes := made.flatMap Attempt.changes
    errors := made.flatMap Attempt.errors
    warnings := made.flatMap Attempt.warnings }

theorem migrate_keepApplied {options : MigrationOptions}
    (keeps : options.failurePolicy = .keepApplied) (rules : List MigrationRule)
    (source : List Char) :
    migrate rules options path source =
      keep source (attempts options path source rules) := by
  rw [migrate, run, foldl_step, Progress.finish, keeps]
  rfl

end ComponentSurvey.Pipeline
