import ComponentSurvey.Migration.Batch
import ComponentSurvey.Proofs.Migration.Isolation

/-!
# Rolling back a file

Where everything applied is rolled back once a rule fails, a file comes out of a run
either as if all that was applied had been kept, or as it was, with the errors and
the warnings that keeping would have reported.
-/

namespace ComponentSurvey

def MigrationOptions.under (options : MigrationOptions) (policy : FailurePolicy) :
    MigrationOptions :=
  { options with failurePolicy := policy }

namespace Pipeline

/-! ## Rules that say why they fail -/

/-- A rule that produces no text reports at least one error. -/
def ReportsFailures (rules : List MigrationRule) : Prop :=
  ∀ rule ∈ rules, ∀ path code,
    (rule.apply path code).succeeded = false → (rule.apply path code).errors ≠ []

theorem reportsFailures_shipped : ReportsFailures MigrationRule.shipped := by
  intro rule member path code failed
  simp only [MigrationRule.shipped, List.mem_cons, List.not_mem_nil, or_false] at member
  rcases member with rfl | rfl | rfl
  · change (DataSourceUpgrade.run path code).succeeded = false at failed
    change (DataSourceUpgrade.run path code).errors ≠ []
    rw [DataSourceUpgrade.run] at failed ⊢
    cases parsed : Syntax.Document.ofComponentFile? path code with
    | none => exact List.cons_ne_nil _ _
    | some document =>
        rw [parsed] at failed
        cases failed
  · cases failed
  · cases failed

/-! ## Attempts under either policy -/

section Attempts

variable {rules : List MigrationRule} (options : MigrationOptions) (path : String)

theorem attempts_under (policy : FailurePolicy) (code : List Char)
    (rules : List MigrationRule) :
    attempts (options.under policy) path code rules = attempts options path code rules := by
  induction rules generalizing code with
  | nil => rfl
  | cons rule rest ih =>
      have same : appliesTo (options.under policy) code rule =
          appliesTo options code rule := rfl
      simp only [attempts, same, ih]

theorem errors_eq_nil_iff (attempt : Attempt) :
    attempt.errors = [] ↔ attempt.succeeded = true ∨ attempt.outcome.errors = [] := by
  cases succeeded : attempt.succeeded <;> simp [Attempt.errors, succeeded]

theorem exists_rule_of_mem_attempts {code : List Char} {made : Attempt}
    (member : made ∈ attempts options path code rules) :
    ∃ rule ∈ rules, ∃ reached, made = attempt path reached rule := by
  induction rules generalizing code with
  | nil => cases member
  | cons rule rest ih =>
      have later {reached : List Char} (isLater : made ∈ attempts options path reached rest) :
          ∃ other ∈ rule :: rest, ∃ reached, made = attempt path reached other := by
        obtain ⟨other, listed, reached, rfl⟩ := ih isLater
        exact ⟨other, List.mem_cons_of_mem _ listed, reached, rfl⟩
      rw [attempts] at member
      split at member
      · rcases List.mem_cons.mp member with rfl | isLater
        · exact ⟨rule, List.mem_cons_self, code, rfl⟩
        · exact later isLater
      · exact later member

def SomeFails (made : List Attempt) : Prop := ∃ attempt ∈ made, attempt.succeeded = false

instance (made : List Attempt) : Decidable (SomeFails made) :=
  inferInstanceAs (Decidable (∃ attempt ∈ made, attempt.succeeded = false))

theorem flatMap_errors_eq_nil_iff (reports : ReportsFailures rules) (code : List Char) :
    (attempts options path code rules).flatMap Attempt.errors = [] ↔
      ¬ SomeFails (attempts options path code rules) := by
  rw [List.flatMap_eq_nil_iff, SomeFails, not_exists]
  refine forall_congr' fun made => ?_
  rw [not_and, Bool.not_eq_false]
  refine imp_congr_right fun member => ?_
  obtain ⟨rule, listed, reached, rfl⟩ := exists_rule_of_mem_attempts options path member
  rw [errors_eq_nil_iff, or_iff_left_of_imp]
  intro silent
  cases succeeded : (attempt path reached rule).succeeded with
  | true => rfl
  | false => exact absurd silent (reports rule listed path reached succeeded)

end Attempts

/-! ## One text -/

/-- What is left of an outcome when what was applied is rolled back. -/
def rolledBack (kept : Outcome RuleFailure) : Outcome RuleFailure :=
  { kept with code := none, changes := [] }

section Texts

variable {rules : List MigrationRule} (options : MigrationOptions) (path : String)
    (source : List Char)

theorem migrate_keeping (rules : List MigrationRule) :
    migrate rules (options.under .keepApplied) path source =
      keep source (attempts options path source rules) := by
  rw [migrate_keepApplied path rfl, attempts_under]

/-- Nothing is rolled back unless there are errors. -/
theorem migrate_rolling (rules : List MigrationRule) :
    migrate rules (options.under .rollbackFile) path source =
      let kept := migrate rules (options.under .keepApplied) path source
      if kept.errors.isEmpty then kept else rolledBack kept := by
  rw [migrate_keeping, migrate, run, foldl_step, attempts_under, Progress.finish]
  cases empty : ((attempts options path source rules).flatMap Attempt.errors).isEmpty <;>
    simp [Progress.start, Progress.extend, keep, rolledBack, empty, MigrationOptions.under]

theorem errors_keeping (reports : ReportsFailures rules) :
    (migrate rules (options.under .keepApplied) path source).errors = [] ↔
      ¬ SomeFails (attempts options path source rules) := by
  rw [migrate_keeping]
  exact flatMap_errors_eq_nil_iff options path reports source

theorem migrate_rolling_of_failed (reports : ReportsFailures rules)
    (failed : SomeFails (attempts options path source rules)) :
    migrate rules (options.under .rollbackFile) path source =
      rolledBack (migrate rules (options.under .keepApplied) path source) := by
  have reported : (migrate rules (options.under .keepApplied) path source).errors ≠ [] :=
    fun none => (errors_keeping options path source reports).mp none failed
  rw [migrate_rolling, if_neg (by simpa using reported)]

theorem migrate_rolling_of_not_failed (reports : ReportsFailures rules)
    (clear : ¬ SomeFails (attempts options path source rules)) :
    migrate rules (options.under .rollbackFile) path source =
      migrate rules (options.under .keepApplied) path source := by
  have silent := (errors_keeping options path source reports).mpr clear
  rw [migrate_rolling, if_pos (by simpa using silent)]

end Texts

/-! ## Runs over files -/

section Files

variable {rules : List MigrationRule} (options : MigrationOptions) (root : String)

theorem steps_append (rules : List MigrationRule) (tree : FileTree)
    (first second : List String) :
    steps rules options root tree (first ++ second) =
      let front := steps rules options root tree first
      let back := steps rules options root front.1 second
      (back.1, front.2 ++ back.2) := by
  induction first generalizing tree with
  | nil => rfl
  | cons file rest ih => simp only [List.cons_append, steps, ih]

def attemptsOn (rules : List MigrationRule) (tree : FileTree) (path : String) :
    List Attempt :=
  match tree.readText path with
  | .ok source => attempts options path source rules
  | .error _ => []

structure RolledBack (kept : Outcome RuleFailure) (file : String) (before : FileTree)
    (result : FileTree × MigrationStep) : Prop where
  untouched : result.1 = before
  reported : FileMigration.ofStep? result.2 =
    some ⟨file, [], kept.warnings, kept.errors.map RuleFailure.message, false⟩
  errors : result.2.errors = kept.errors.map fun failure => s!"{file}: {failure.message}"
  failed : kept.errors ≠ []

theorem step_rolling_of_failed (reports : ReportsFailures rules) (tree : FileTree)
    (file : String)
    (failed : SomeFails (attemptsOn options rules tree (Path.join root file))) :
    ∃ kept,
      migrateFile rules (options.under .keepApplied) tree (Path.join root file) = .ok kept ∧
        RolledBack kept file tree
          (step rules (options.under .rollbackFile) root tree file) := by
  rw [attemptsOn] at failed
  cases read : tree.readText (Path.join root file) with
  | error error =>
      rw [read] at failed
      obtain ⟨attempt, member, -⟩ := failed
      cases member
  | ok source =>
      rw [read] at failed
      have rolled := migrate_rolling_of_failed options (Path.join root file) source
        reports failed
      refine ⟨migrate rules (options.under .keepApplied) (Path.join root file) source,
        by rw [migrateFile, read], ?_⟩
      have errors : (migrate rules (options.under .keepApplied) (Path.join root file)
          source).errors ≠ [] := fun none =>
        (errors_keeping options (Path.join root file) source reports).mp none failed
      have stepped : step rules (options.under .rollbackFile) root tree file =
          (tree, .processed file (rolledBack (migrate rules (options.under .keepApplied)
            (Path.join root file) source)) .nothing) := by
        simp only [step, migrateFile, read, rolled]
        rfl
      rw [stepped]
      refine ⟨rfl, ?_, ?_, errors⟩
      · rw [FileMigration.ofStep?, if_pos (by simp [rolledBack, errors])]
        rfl
      · rfl

theorem step_rolling_of_not_failed (reports : ReportsFailures rules) (tree : FileTree)
    (file : String)
    (clear : ¬ SomeFails (attemptsOn options rules tree (Path.join root file))) :
    step rules (options.under .rollbackFile) root tree file =
      step rules (options.under .keepApplied) root tree file := by
  rw [attemptsOn] at clear
  rw [step, step, migrateFile, migrateFile]
  cases read : tree.readText (Path.join root file) with
  | error error => rfl
  | ok source =>
      rw [read] at clear
      simp only [migrate_rolling_of_not_failed options (Path.join root file) source reports clear]
      rfl

theorem length_steps (rules : List MigrationRule) (tree : FileTree) (files : List String) :
    (steps rules options root tree files).2.length = files.length := by
  induction files generalizing tree with
  | nil => rfl
  | cons file rest ih => simp only [steps, List.length_cons, ih]

/-- A run makes the step of a file on the tree that the steps before it left. -/
theorem steps_at (rules : List MigrationRule) (tree : FileTree) (first : List String)
    (file : String) (rest : List String) :
    steps rules options root tree (first ++ file :: rest) =
      let front := steps rules options root tree first
      let result := step rules options root front.1 file
      let back := steps rules options root result.1 rest
      (back.1, front.2 ++ result.2 :: back.2) := by
  rw [steps_append]
  rfl

theorem mem_files_of_step {tree : FileTree} {first rest : List String} {file : String}
    {report : FileMigration} (analysis : Option MigrationAnalysis)
    (reported : FileMigration.ofStep?
      (step rules options root (steps rules options root tree first).1 file).2 =
        some report) :
    report ∈ (migrateFiles rules options root analysis tree (first ++ file :: rest)).2.files := by
  rw [migrateFiles, steps_at]
  exact List.mem_filterMap.mpr ⟨_, by simp, reported⟩

/--
Rolling back is all or nothing for each file.  A text on which no rule fails comes
out as under the other policy; of any other one only the errors and warnings are left.
So a run leaves the tree as it finds it where a rule fails on a file, and reports the
file with its errors and as not written, and it treats every other file as the
other policy would.
-/
theorem rolledBack_or_kept (reports : ReportsFailures rules) (options : MigrationOptions) :
    (∀ path source,
      let kept := migrate rules (options.under .keepApplied) path source
      let rolling := migrate rules (options.under .rollbackFile) path source
      (¬ SomeFails (attempts options path source rules) → rolling = kept) ∧
        (SomeFails (attempts options path source rules) →
          rolling.succeeded = false ∧ rolling.code = none ∧ rolling.changes = [] ∧
            rolling.errors = kept.errors ∧ rolling.warnings = kept.warnings)) ∧
      ∀ root tree first file rest analysis,
        let run := steps rules (options.under .rollbackFile) root tree
        let before := (run first).1
        let result := step rules (options.under .rollbackFile) root before file
        let path := Path.join root file
        (run (first ++ [file])).1 = result.1 ∧
          (run (first ++ file :: rest)).2[first.length]? = some result.2 ∧
          (¬ SomeFails (attemptsOn options rules before path) →
            result = step rules (options.under .keepApplied) root before file) ∧
          (SomeFails (attemptsOn options rules before path) →
            ∃ kept, migrateFile rules (options.under .keepApplied) before path = .ok kept ∧
              RolledBack kept file before result ∧
              ⟨file, [], kept.warnings, kept.errors.map RuleFailure.message, false⟩ ∈
                (migrateFiles rules (options.under .rollbackFile) root analysis tree
                  (first ++ file :: rest)).2.files) := by
  refine ⟨fun path source => ⟨?_, fun failed => ?_⟩, ?_⟩
  · exact migrate_rolling_of_not_failed options path source reports
  · rw [migrate_rolling_of_failed options path source reports failed]
    exact ⟨rfl, rfl, rfl, rfl, rfl⟩
  · intro root tree first file rest analysis
    refine ⟨?_, ?_, ?_, fun failed => ?_⟩
    · rw [steps_at]
      rfl
    · have front := length_steps (options.under .rollbackFile) root rules tree first
      rw [steps_at, List.getElem?_append_right (Nat.le_of_eq front), front, Nat.sub_self]
      rfl
    · exact step_rolling_of_not_failed options root reports _ file
    · obtain ⟨kept, migrated, rolled⟩ :=
        step_rolling_of_failed options root reports _ file failed
      exact ⟨kept, migrated, rolled, mem_files_of_step _ root analysis rolled.reported⟩

end Files

def unclosedProject : FileTree := .ofFiles "/p" [("a.tsx", .text unclosedForm)]

theorem rolledBack_or_kept_unclosed :
    ReportsFailures MigrationRule.shipped ∧
      SomeFails (attempts default "a.tsx" unclosedForm MigrationRule.shipped) ∧
      SomeFails
        (attemptsOn default MigrationRule.shipped unclosedProject (Path.join "/p" "a.tsx")) ∧
      (migrate MigrationRule.shipped ((default : MigrationOptions).under .rollbackFile) "a.tsx"
        unclosedForm).succeeded = false ∧
      ∃ kept,
        migrateFile MigrationRule.shipped ((default : MigrationOptions).under .keepApplied)
            unclosedProject (Path.join "/p" "a.tsx") = .ok kept ∧
          RolledBack kept "a.tsx" unclosedProject
            (step MigrationRule.shipped ((default : MigrationOptions).under .rollbackFile) "/p"
              unclosedProject "a.tsx") := by
  have inText : SomeFails (attempts default "a.tsx" unclosedForm MigrationRule.shipped) := by
    decide +kernel
  have inTree : SomeFails
      (attemptsOn default MigrationRule.shipped unclosedProject (Path.join "/p" "a.tsx")) := by
    decide +kernel
  obtain ⟨texts, files⟩ := rolledBack_or_kept reportsFailures_shipped default
  obtain ⟨kept, migrated, rolled, -⟩ :=
    (files "/p" unclosedProject [] "a.tsx" [] none).2.2.2 inTree
  exact ⟨reportsFailures_shipped, inText, inTree,
    ((texts "a.tsx" unclosedForm).2 inText).1, kept, migrated, rolled⟩

end Pipeline

end ComponentSurvey
