import ComponentSurvey.Proofs.Migration.Attempts

/-!
# Failing rules do not disturb the others

A run of one list of rules after another is a run of both lists together, and
deleting the rules that fail leaves the text and the changes as they are.
-/

namespace ComponentSurvey.Pipeline

variable (options : MigrationOptions) (path : String)

theorem attempts_append (code : List Char) (first second : List MigrationRule) :
    attempts options path code (first ++ second) =
      let made := attempts options path code first
      made ++ attempts options path (codeAfter code made) second := by
  induction first generalizing code with
  | nil => rfl
  | cons rule rest ih =>
      simp only [List.cons_append, attempts]
      split
      · rw [ih]
        rfl
      · exact ih code

theorem attempts_withoutFailed (code : List Char) (rules : List MigrationRule) :
    attempts options path code (withoutFailed options path code rules) =
      (attempts options path code rules).filter Attempt.succeeded := by
  induction rules generalizing code with
  | nil => rfl
  | cons rule rest ih =>
      simp only [withoutFailed, attempts]
      by_cases applies : appliesTo options code rule = true
      · simp only [applies, if_true]
        cases made : (attempt path code rule).succeeded with
        | true =>
            simp only [if_true, attempts, applies, List.filter_cons_of_pos made, ih]
        | false =>
            rw [Attempt.handOn_of_failed made, List.filter_cons_of_neg (by simp [made])]
            exact ih code
      · simp only [applies, Bool.false_eq_true, if_false, attempts]
        exact ih code

theorem codeAfter_filter_succeeded (code : List Char) (made : List Attempt) :
    codeAfter code (made.filter Attempt.succeeded) = codeAfter code made := by
  induction made generalizing code with
  | nil => rfl
  | cons first rest ih =>
      cases succeeded : first.succeeded with
      | true =>
          rw [List.filter_cons_of_pos succeeded]
          exact ih (first.handOn code)
      | false =>
          rw [List.filter_cons_of_neg (by simp [succeeded]), ih, codeAfter, codeAfter,
            List.foldl_cons, Attempt.handOn_of_failed succeeded]

theorem flatMap_filter_of_nil {β : Type} (part : Attempt → List β)
    (counts : Attempt → Bool)
    (empty : ∀ attempt, counts attempt = false → part attempt = [])
    (made : List Attempt) : (made.filter counts).flatMap part = made.flatMap part := by
  induction made with
  | nil => rfl
  | cons first rest ih =>
      cases counted : counts first with
      | true =>
          rw [List.filter_cons_of_pos counted, List.flatMap_cons, List.flatMap_cons, ih]
      | false =>
          rw [List.filter_cons_of_neg (by simp [counted]), List.flatMap_cons,
            empty first counted, ih, List.nil_append]

theorem flatMap_errors_filter_succeeded (made : List Attempt) :
    (made.filter Attempt.succeeded).flatMap Attempt.errors = [] := by
  rw [List.flatMap_eq_nil_iff]
  intro attempt member
  rw [Attempt.errors, (List.mem_filter.mp member).2, if_pos rfl]

/-- Two runs in one report, the second of which had the last word on the text. -/
def followedBy (start rest : Outcome RuleFailure) : Outcome RuleFailure :=
  { code := rest.code
    changes := start.changes ++ rest.changes
    errors := start.errors ++ rest.errors
    warnings := start.warnings ++ rest.warnings }

/-- A run next to the run without the rules that failed in it. -/
structure FailuresIsolated (made : List Attempt) (whole cleared : Outcome RuleFailure) :
    Prop where
  code : cleared.code = whole.code
  changes : cleared.changes = whole.changes
  errors : cleared.errors = []
  warnings : cleared.warnings =
    (made.filter Attempt.succeeded).flatMap Attempt.warnings
  reportedErrors : whole.errors =
    (made.filter fun attempt => !attempt.succeeded).flatMap Attempt.errors
  reportedWarnings : whole.warnings = made.flatMap Attempt.warnings

theorem failuresIsolated_keep (source : List Char) (made : List Attempt) :
    FailuresIsolated made (keep source made)
      (keep source (made.filter Attempt.succeeded)) where
  code := congrArg some (codeAfter_filter_succeeded source made)
  changes := by
    refine flatMap_filter_of_nil _ _ (fun attempt failed => ?_) made
    rw [Attempt.changes, failed]
    rfl
  errors := flatMap_errors_filter_succeeded made
  warnings := rfl
  reportedErrors := by
    refine (flatMap_filter_of_nil _ _ (fun attempt succeeded => ?_) made).symm
    rw [Attempt.errors, if_pos (by simpa using succeeded)]
  reportedWarnings := rfl

/--
Rules are run one after the other: the second list starts from the text that the
first one reached, and the reports follow one another.  A rule that fails adds its
errors and warnings and nothing else, so that deleting every failing rule leaves the
text, the changes and the warnings of the others, and no errors.
-/
theorem migrate_sequential {options : MigrationOptions}
    (keeps : options.failurePolicy = .keepApplied) (path : String)
    (first second : List MigrationRule) (source : List Char) :
    (∃ reached,
      (migrate first options path source).code = some reached ∧
        migrate (first ++ second) options path source =
          followedBy (migrate first options path source)
            (migrate second options path reached)) ∧
      ∀ rules : List MigrationRule,
        FailuresIsolated (attempts options path source rules)
          (migrate rules options path source)
          (migrate (withoutFailed options path source rules) options path source) := by
  constructor
  · refine ⟨codeAfter source (attempts options path source first), ?_⟩
    simp [migrate_keepApplied path keeps, attempts_append, keep, followedBy, codeAfter]
  · intro rules
    rw [migrate_keepApplied path keeps, migrate_keepApplied path keeps,
      attempts_withoutFailed]
    exact failuresIsolated_keep source _

def unclosedForm : List Char :=
  "<ArchbaseEdit><ArchbaseFormTemplate validation={rules}".toList

theorem migrate_sequential_unclosed :
    (default : MigrationOptions).failurePolicy = .keepApplied ∧
      (migrate MigrationRule.shipped default "a.tsx" unclosedForm).errors ≠ [] ∧
      (migrate MigrationRule.shipped default "a.tsx" unclosedForm).changes ≠ [] ∧
      (∃ reached,
        (migrate [.dataSourceUpgrade] default "a.tsx" unclosedForm).code = some reached ∧
          migrate ([.dataSourceUpgrade] ++ [.formValidationUpgrade]) default "a.tsx"
              unclosedForm =
            followedBy (migrate [.dataSourceUpgrade] default "a.tsx" unclosedForm)
              (migrate [.formValidationUpgrade] default "a.tsx" reached)) ∧
      FailuresIsolated (attempts default "a.tsx" unclosedForm MigrationRule.shipped)
        (migrate MigrationRule.shipped default "a.tsx" unclosedForm)
        (migrate (withoutFailed default "a.tsx" unclosedForm MigrationRule.shipped) default
          "a.tsx" unclosedForm) := by
  have sequential := @migrate_sequential default rfl "a.tsx" [.dataSourceUpgrade]
    [.formValidationUpgrade] unclosedForm
  exact ⟨rfl, by decide +kernel, by decide +kernel, sequential.1, sequential.2 _⟩

end ComponentSurvey.Pipeline
