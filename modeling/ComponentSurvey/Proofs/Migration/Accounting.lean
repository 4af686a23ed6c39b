import ComponentSurvey.Proofs.Files.Writing
import ComponentSurvey.Proofs.Migration.Rollback

/-!
# What a run reports about its files

Every file of a run is read or reported as unread, and every file that there is something to say
about has one entry.  What the entries say about changes and about writing is what happened to the
tree, and no file changes that is not reported with changes.
-/

namespace ComponentSurvey.Pipeline

variable (rules : List MigrationRule) (options : MigrationOptions) (root : String)

/-! ## One step -/

theorem exists_code_of_changes {path : String} {source : List Char}
    (changed : (migrate rules options path source).changes ≠ []) :
    ∃ code, (migrate rules options path source).code = some code := by
  rw [migrate, Progress.finish] at changed ⊢
  split
  · rename_i rolledBack
    rw [if_pos rolledBack] at changed
    exact absurd rfl changed
  · exact ⟨_, rfl⟩

/-- The ways a step can go, each with the tree and the report that come of it. -/
inductive Stepped (tree : FileTree) (file : String) : FileTree → MigrationStep → Prop
  | unread (error : MigrationError)
      (failed : migrateFile rules options tree (Path.join root file) = .error error) :
      Stepped tree file tree (.unread file error)
  | left (outcome : Outcome RuleFailure)
      (migrated : migrateFile rules options tree (Path.join root file) = .ok outcome)
      (idle : outcome.changes = [] ∨ options.dryRun = true) :
      Stepped tree file tree (.processed file outcome .nothing)
  | saved (outcome : Outcome RuleFailure) (code : List Char)
      (migrated : migrateFile rules options tree (Path.join root file) = .ok outcome)
      (hasCode : outcome.code = some code) (changed : outcome.changes ≠ [])
      (real : options.dryRun = false) :
      Stepped tree file (tree.save (Path.join root file) (some code) options.backup).1
        (.processed file outcome
          (tree.save (Path.join root file) (some code) options.backup).2)

theorem hasChanges_iff {tree : FileTree} {path : String} {outcome : Outcome RuleFailure}
    (migrated : migrateFile rules options tree path = .ok outcome) :
    outcome.hasChanges = true ↔ outcome.changes ≠ [] := by
  rw [migrateFile] at migrated
  split at migrated
  · cases migrated
  · obtain rfl := Except.ok.inj migrated
    constructor
    · intro hasChanges none
      simp [Outcome.hasChanges, none] at hasChanges
    · intro changed
      obtain ⟨code, hasCode⟩ := exists_code_of_changes rules options changed
      simp [Outcome.hasChanges, Outcome.succeeded, hasCode, changed]

theorem stepped (tree : FileTree) (file : String) :
    Stepped rules options root tree file (step rules options root tree file).1
      (step rules options root tree file).2 := by
  rw [step]
  cases migrated : migrateFile rules options tree (Path.join root file) with
  | error error => exact .unread error migrated
  | ok outcome =>
      have hasChanges := hasChanges_iff rules options migrated
      cases dry : options.dryRun with
      | true =>
          simp only [Bool.not_true, Bool.and_false, Bool.false_eq_true, if_false]
          exact .left outcome migrated (.inr dry)
      | false =>
          simp only [Bool.not_false, Bool.and_true]
          split
          · rename_i some
            have changed := hasChanges.mp some
            obtain ⟨code, hasCode⟩ : ∃ code, outcome.code = Option.some code := by
              rw [Outcome.hasChanges, Bool.and_eq_true] at some
              exact Option.isSome_iff_exists.mp some.1
            rw [hasCode]
            exact .saved outcome code migrated hasCode changed dry
          · rename_i none
            refine .left outcome migrated (.inl ?_)
            by_contra changed
            exact none (hasChanges.mpr changed)

/-! ## The files as a run finds them -/

/-- A file of a run, and the tree when its turn has come. -/
structure Visit where
  file : String
  found : FileTree

def visits : FileTree → List String → List Visit
  | _, [] => []
  | tree, file :: rest => ⟨file, tree⟩ :: visits (step rules options root tree file).1 rest

namespace Visit

def outcome (visit : Visit) : Except MigrationError (Outcome RuleFailure) :=
  migrateFile rules options visit.found (Path.join root visit.file)

def isUnread (visit : Visit) : Bool :=
  match visit.outcome rules options root with
  | .error _ => true
  | .ok _ => false

def isNotable (visit : Visit) : Bool :=
  match visit.outcome rules options root with
  | .error _ => false
  | .ok outcome =>
    !outcome.changes.isEmpty || !outcome.errors.isEmpty || !outcome.warnings.isEmpty

def result (visit : Visit) : FileTree × MigrationStep :=
  step rules options root visit.found visit.file

def report? (visit : Visit) : Option FileMigration :=
  FileMigration.ofStep? (visit.result rules options root).2

def FailsToSave (visit : Visit) (error : MigrationError) : Prop :=
  ∃ outcome, visit.outcome rules options root = .ok outcome ∧
    (visit.found.save (Path.join root visit.file) outcome.code options.backup).2 =
      .failed error

/-- The file holds the code that it was migrated to. -/
def IsWritten (visit : Visit) : Prop :=
  ∃ outcome code, visit.outcome rules options root = .ok outcome ∧ outcome.code = some code ∧
    (visit.result rules options root).1.readText (Path.join root visit.file) = .ok code

theorem stepped (visit : Visit) :
    Stepped rules options root visit.found visit.file (visit.result rules options root).1
      (visit.result rules options root).2 :=
  Pipeline.stepped rules options root visit.found visit.file

theorem unread_or_processed (visit : Visit) :
    (∃ error, visit.outcome rules options root = .error error ∧
      (visit.result rules options root).2 = .unread visit.file error) ∨
    ∃ outcome saved, visit.outcome rules options root = .ok outcome ∧
      (visit.result rules options root).2 = .processed visit.file outcome saved := by
  have stepped := visit.stepped rules options root
  generalize visit.result rules options root = result at stepped ⊢
  obtain ⟨after, report⟩ := result
  cases stepped with
  | unread error failed => exact .inl ⟨error, failed, rfl⟩
  | left outcome migrated idle => exact .inr ⟨outcome, _, migrated, rfl⟩
  | saved outcome code migrated hasCode changed real => exact .inr ⟨outcome, _, migrated, rfl⟩

end Visit

theorem map_file_visits (tree : FileTree) (files : List String) :
    (visits rules options root tree files).map Visit.file = files := by
  induction files generalizing tree with
  | nil => rfl
  | cons file rest ih => rw [visits, List.map_cons, ih]

theorem steps_eq_map_visits (tree : FileTree) (files : List String) :
    (steps rules options root tree files).2 =
      (visits rules options root tree files).map fun visit =>
        (visit.result rules options root).2 := by
  induction files generalizing tree with
  | nil => rfl
  | cons file rest ih =>
      simp only [steps, visits, List.map_cons, ih]
      rfl

theorem exists_front_of_mem_visits {tree : FileTree} {files : List String} {visit : Visit}
    (member : visit ∈ visits rules options root tree files) :
    ∃ front back, files = front ++ visit.file :: back ∧
      visit.found = (steps rules options root tree front).1 := by
  induction files generalizing tree with
  | nil => cases member
  | cons file rest ih =>
      rw [visits] at member
      rcases List.mem_cons.mp member with rfl | later
      · exact ⟨[], rest, rfl, rfl⟩
      · obtain ⟨front, back, rfl, found⟩ := ih later
        exact ⟨file :: front, back, rfl, found⟩

/-! ## Entries -/

/-- An entry says what came of a file, and errors hold why it was not written. -/
structure Reports (errors : List String) (visit : Visit) (entry : FileMigration) : Prop where
  file : entry.file = visit.file
  outcome : ∃ outcome, visit.outcome rules options root = .ok outcome ∧
    entry.changes = outcome.changes ∧ entry.warnings = outcome.warnings ∧
      entry.errors = outcome.errors.map RuleFailure.message
  written : entry.written = true →
    entry.changes ≠ [] ∧ options.dryRun = false ∧ visit.IsWritten rules options root
  unwritten : entry.changes ≠ [] → options.dryRun = false → entry.written = false →
    ∃ error, visit.FailsToSave rules options root error ∧
      (error.path = Path.join root visit.file ∨
        error.path = backupPath (Path.join root visit.file)) ∧
      error.message ∈ errors

variable {rules options root}

theorem Reports.mono {first second : List String} {visit : Visit} {entry : FileMigration}
    (reports : Reports rules options root first visit entry) (within : first ⊆ second) :
    Reports rules options root second visit entry where
  file := reports.file
  outcome := reports.outcome
  written := reports.written
  unwritten changed real unwritten := by
    obtain ⟨error, fails, named, member⟩ := reports.unwritten changed real unwritten
    exact ⟨error, fails, named, within member⟩

/-- A processed file has an entry as soon as one of its three lists has something in it. -/
theorem ofStep?_processed {tree : FileTree} {path file : String}
    {outcome : Outcome RuleFailure} (migrated : migrateFile rules options tree path = .ok outcome)
    (saved : SaveResult) :
    FileMigration.ofStep? (.processed file outcome saved) =
      if !outcome.changes.isEmpty || !outcome.errors.isEmpty || !outcome.warnings.isEmpty then
        some ⟨file, outcome.changes, outcome.warnings,
          outcome.errors.map RuleFailure.message, saved.isWritten⟩
      else none := by
  have same : outcome.hasChanges = !outcome.changes.isEmpty := by
    rw [Bool.eq_iff_iff, hasChanges_iff rules options migrated]
    simp
  rw [FileMigration.ofStep?, same]

theorem ofStep?_of_changed {tree : FileTree} {path : String} {outcome : Outcome RuleFailure}
    (migrated : migrateFile rules options tree path = .ok outcome)
    (changed : outcome.changes ≠ []) (file : String) (saved : SaveResult) :
    FileMigration.ofStep? (.processed file outcome saved) =
      some ⟨file, outcome.changes, outcome.warnings,
        outcome.errors.map RuleFailure.message, saved.isWritten⟩ := by
  rw [ofStep?_processed migrated, if_pos (by simp [changed])]

theorem isSome_report? (visit : Visit) :
    (visit.report? rules options root).isSome = visit.isNotable rules options root := by
  rw [Visit.isNotable, Visit.report?]
  rcases visit.unread_or_processed rules options root with
    ⟨error, failed, report⟩ | ⟨outcome, saved, migrated, report⟩
  · rw [failed, report]
    rfl
  · rw [migrated, report, ofStep?_processed migrated]
    dsimp only
    generalize (!outcome.changes.isEmpty || !outcome.errors.isEmpty ||
      !outcome.warnings.isEmpty) = notable
    cases notable <;> rfl

theorem reports_of_report? {visit : Visit} {entry : FileMigration}
    (reported : visit.report? rules options root = some entry) :
    Reports rules options root (visit.result rules options root).2.errors visit entry := by
  rw [Visit.report?] at reported
  have stepped := visit.stepped rules options root
  generalize isResult : visit.result rules options root = result at stepped reported ⊢
  obtain ⟨after, report⟩ := result
  cases stepped with
  | unread error failed => cases reported
  | left outcome migrated idle =>
      rw [ofStep?_processed migrated, Option.ite_none_right_eq_some] at reported
      obtain rfl := Option.some.inj reported.2
      refine ⟨rfl, ⟨outcome, migrated, rfl, rfl, rfl⟩, fun written => ?_, ?_⟩
      · cases written
      · intro changed real
        rcases idle with unchanged | dry
        · exact absurd unchanged changed
        · rw [dry] at real
          cases real
  | saved outcome code migrated hasCode changed real =>
      rw [ofStep?_processed migrated, Option.ite_none_right_eq_some] at reported
      obtain rfl := Option.some.inj reported.2
      refine ⟨rfl, ⟨outcome, migrated, rfl, rfl, rfl⟩, ?_, ?_⟩
      · intro written
        have holds := FileTree.readText_of_save (of_decide_eq_true written)
        refine ⟨changed, real, outcome, code, migrated, hasCode, ?_⟩
        rwa [isResult]
      · intro _ _ unwritten
        rcases FileTree.save_written_or_failed visit.found (Path.join root visit.file) code
          options.backup with written | ⟨error, failed, named⟩
        · rw [SaveResult.isWritten, decide_eq_false_iff_not] at unwritten
          exact absurd written unwritten
        · refine ⟨error, ⟨outcome, migrated, hasCode ▸ failed⟩, named, ?_⟩
          rw [failed, MigrationStep.errors]
          exact List.mem_append_left _ (List.mem_singleton.mpr rfl)

/-! ## What is counted -/

theorem isProcessed_result (visit : Visit) :
    (visit.result rules options root).2.isProcessed = !visit.isUnread rules options root := by
  rw [Visit.isUnread]
  rcases visit.unread_or_processed rules options root with
    ⟨error, failed, report⟩ | ⟨outcome, saved, migrated, report⟩
  · rw [failed, report]
    rfl
  · rw [migrated, report]
    rfl

theorem changes_result (visit : Visit) :
    (visit.result rules options root).2.changes =
      ((visit.report? rules options root).map FileMigration.changes).getD [] := by
  rw [Visit.report?]
  rcases visit.unread_or_processed rules options root with
    ⟨error, failed, report⟩ | ⟨outcome, saved, migrated, report⟩
  · rw [report]
    rfl
  · have changed := hasChanges_iff rules options migrated
    rw [report, ofStep?_processed migrated, MigrationStep.changes]
    cases made : outcome.changes with
    | nil =>
        rw [ite_self]
        split <;> rfl
    | cons first others =>
        rw [made] at changed
        rw [if_pos (changed.mpr (List.cons_ne_nil _ _))]
        rfl

theorem hasChanges_result (visit : Visit) :
    (visit.result rules options root).2.hasChanges = true ↔
      (visit.result rules options root).2.changes ≠ [] := by
  rcases visit.unread_or_processed rules options root with
    ⟨error, failed, report⟩ | ⟨outcome, saved, migrated, report⟩
  · rw [report]
    simp [MigrationStep.hasChanges, MigrationStep.changes]
  · have changed := hasChanges_iff rules options migrated
    rw [report, MigrationStep.hasChanges, MigrationStep.changes]
    simp_all

variable (rules options root) (tree : FileTree) (files : List String)

theorem countP_isProcessed_steps :
    (steps rules options root tree files).2.countP MigrationStep.isProcessed +
      (visits rules options root tree files).countP (Visit.isUnread rules options root) =
        files.length := by
  have all := List.length_eq_countP_add_countP (Visit.isUnread rules options root)
    (l := visits rules options root tree files)
  have processed : (steps rules options root tree files).2.countP MigrationStep.isProcessed =
      (visits rules options root tree files).countP fun visit =>
        decide ¬visit.isUnread rules options root = true := by
    rw [steps_eq_map_visits, List.countP_map]
    apply List.countP_congr
    intro visit _
    simp [isProcessed_result]
  rw [← List.length_map Visit.file, map_file_visits] at all
  omega

theorem filterMap_ofStep?_steps :
    (steps rules options root tree files).2.filterMap FileMigration.ofStep? =
      (visits rules options root tree files).filterMap (Visit.report? rules options root) := by
  rw [steps_eq_map_visits, List.filterMap_map]
  rfl

theorem countP_hasChanges_steps :
    (steps rules options root tree files).2.countP MigrationStep.hasChanges =
      ((steps rules options root tree files).2.filterMap FileMigration.ofStep?).countP
        fun entry => entry.changes ≠ [] := by
  rw [filterMap_ofStep?_steps, steps_eq_map_visits, List.countP_map, List.countP_filterMap]
  apply List.countP_congr
  intro visit _
  rw [Function.comp_apply, hasChanges_result, changes_result]
  cases visit.report? rules options root <;> simp

theorem total_changes_steps :
    Order.total (fun report => report.changes.length) (steps rules options root tree files).2 =
      Order.total (fun entry => entry.changes.length)
        ((steps rules options root tree files).2.filterMap FileMigration.ofStep?) := by
  rw [filterMap_ofStep?_steps, steps_eq_map_visits]
  generalize visits rules options root tree files = found
  induction found with
  | nil => rfl
  | cons visit rest ih =>
      rw [List.map_cons, Order.total_cons, ih, changes_result]
      cases reported : visit.report? rules options root with
      | none => simp [reported]
      | some entry => simp [reported]

/-! ## Entries, in order -/

variable {rules options root} in
theorem forall₂_entries {errors : List String} {found : List Visit}
    (within : ∀ visit ∈ found, (visit.result rules options root).2.errors ⊆ errors) :
    List.Forall₂ (Reports rules options root errors)
      (found.filter (Visit.isNotable rules options root))
      (found.filterMap (Visit.report? rules options root)) := by
  induction found with
  | nil => exact .nil
  | cons visit rest ih =>
      obtain ⟨here, later⟩ := List.forall_mem_cons.mp within
      have notable : (visit.report? rules options root).isSome =
          visit.isNotable rules options root := isSome_report? visit
      cases reported : visit.report? rules options root with
      | none =>
          rw [reported] at notable
          rw [List.filter_cons_of_neg (by simp [← notable]), List.filterMap_cons_none reported]
          exact ih later
      | some entry =>
          rw [reported] at notable
          rw [List.filter_cons_of_pos (by simp [← notable]), List.filterMap_cons_some reported]
          exact .cons ((reports_of_report? reported).mono here) (ih later)

theorem forall₂_reports :
    List.Forall₂ (Reports rules options root
        ((steps rules options root tree files).2.flatMap MigrationStep.errors))
      ((visits rules options root tree files).filter (Visit.isNotable rules options root))
      ((steps rules options root tree files).2.filterMap FileMigration.ofStep?) := by
  rw [filterMap_ofStep?_steps, steps_eq_map_visits]
  apply forall₂_entries
  intro visit member error listed
  exact List.mem_flatMap.mpr ⟨_, List.mem_map_of_mem member, listed⟩

theorem errors_of_unread {visit : Visit} (member : visit ∈ visits rules options root tree files)
    {error : MigrationError} (failed : visit.outcome rules options root = .error error) :
    s!"Failed to migrate {visit.file}: {error.message}" ∈
      (steps rules options root tree files).2.flatMap MigrationStep.errors := by
  rw [steps_eq_map_visits]
  refine List.mem_flatMap.mpr ⟨_, List.mem_map_of_mem member, ?_⟩
  rcases visit.unread_or_processed rules options root with
    ⟨met, isMet, report⟩ | ⟨outcome, saved, migrated, report⟩
  · rw [failed] at isMet
    obtain rfl := Except.error.inj isMet
    rw [report]
    exact List.mem_singleton.mpr rfl
  · rw [failed] at migrated
    cases migrated

theorem map_file_sublist :
    (((steps rules options root tree files).2.filterMap FileMigration.ofStep?).map
      FileMigration.file).Sublist files := by
  have reports := forall₂_reports rules options root tree files
  have sameFiles : ((steps rules options root tree files).2.filterMap
      FileMigration.ofStep?).map FileMigration.file =
        ((visits rules options root tree files).filter
          (Visit.isNotable rules options root)).map Visit.file := by
    generalize (visits rules options root tree files).filter _ = notable at reports ⊢
    generalize (steps rules options root tree files).2.filterMap _ = entries at reports ⊢
    induction reports with
    | nil => rfl
    | cons first _ ih => rw [List.map_cons, List.map_cons, ih, first.file]
  rw [sameFiles]
  conv_rhs => rw [← map_file_visits rules options root tree files]
  exact List.filter_sublist.map Visit.file

/-! ## The tree -/

/-- Where a run that says this may have left a trace. -/
def IsAccountedFor (entries : List FileMigration) (place : Place) : Prop :=
  options.dryRun = false ∧
    ∃ entry ∈ entries, entry.changes ≠ [] ∧
      tree.IsSavedAt (Path.join root entry.file) place

theorem changedAt_result (visit : Visit) :
    visit.found.ChangedAt
      (IsAccountedFor options root visit.found (visit.report? rules options root).toList)
      (visit.result rules options root).1 := by
  have stepped := visit.stepped rules options root
  rw [Visit.report?]
  generalize visit.result rules options root = result at stepped ⊢
  obtain ⟨after, report⟩ := result
  cases stepped with
  | unread error failed => exact .refl _ _
  | left outcome migrated idle => exact .refl _ _
  | saved outcome code migrated hasCode changed real =>
      apply (FileTree.changedAt_save visit.found (Path.join root visit.file) code
        options.backup).mono
      intro place savedThere
      exact ⟨real, _, Option.mem_toList.mpr (ofStep?_of_changed migrated changed _ _), changed,
        savedThere⟩

theorem changedAt_steps :
    tree.ChangedAt
      (IsAccountedFor options root tree
        ((steps rules options root tree files).2.filterMap FileMigration.ofStep?))
      (steps rules options root tree files).1 := by
  rw [filterMap_ofStep?_steps]
  induction files generalizing tree with
  | nil => exact .refl _ _
  | cons file rest ih =>
      have first := changedAt_result rules options root ⟨file, tree⟩
      have others := ih (step rules options root tree file).1
      have entries : (visits rules options root tree (file :: rest)).filterMap
          (Visit.report? rules options root) =
            (Visit.report? rules options root ⟨file, tree⟩).toList ++
              (visits rules options root (step rules options root tree file).1 rest).filterMap
                (Visit.report? rules options root) := by
        rw [visits, List.filterMap_cons]
        cases Visit.report? rules options root ⟨file, tree⟩ <;> rfl
      rw [entries]
      refine (first.mono ?_).trans (others.mono ?_)
      · rintro place ⟨real, entry, member, changed, saved⟩
        exact ⟨real, entry, List.mem_append_left _ member, changed, saved⟩
      · -- A place is the same in both trees, as the directories are.
        rintro place ⟨real, entry, member, changed, saved⟩
        exact ⟨real, entry, List.mem_append_right _ member, changed,
          saved.imp first.locate_iff.mp first.locate_iff.mp⟩

theorem wellFormed_step {tree : FileTree} (formed : tree.WellFormed) (file : String) :
    (step rules options root tree file).1.WellFormed := by
  have stepped := stepped rules options root tree file
  generalize step rules options root tree file = result at stepped ⊢
  obtain ⟨after, report⟩ := result
  cases stepped with
  | unread error failed => exact formed
  | left outcome migrated idle => exact formed
  | saved outcome code migrated hasCode changed real =>
      exact formed.save (Path.join root file) code options.backup

/-- Whatever fails in a run, it leaves a well-formed tree. -/
theorem wellFormed_steps {tree : FileTree} (formed : tree.WellFormed) (files : List String) :
    (steps rules options root tree files).1.WellFormed := by
  induction files generalizing tree with
  | nil => exact formed
  | cons file rest ih => exact ih (wellFormed_step rules options root formed file)

theorem steps_of_dryRun (dry : options.dryRun = true) :
    (steps rules options root tree files).1 = tree := by
  induction files generalizing tree with
  | nil => rfl
  | cons file rest ih =>
      have first : (step rules options root tree file).1 = tree := by
        have stepped := stepped rules options root tree file
        generalize step rules options root tree file = result at stepped ⊢
        obtain ⟨after, report⟩ := result
        cases stepped with
        | unread error failed => rfl
        | left outcome migrated idle => rfl
        | saved outcome code migrated hasCode changed real =>
            rw [dry] at real
            cases real
      simp only [steps, ih, first]

/-! ## Runs -/

/-- A summary and the tree that is left, against what the run finds. -/
structure Accounted (after : FileTree) (summary : BatchSummary) : Prop where
  processed : summary.filesProcessed +
    (visits rules options root tree files).countP (Visit.isUnread rules options root) =
      files.length
  unread : ∀ visit ∈ visits rules options root tree files, ∀ error,
    visit.outcome rules options root = .error error →
      s!"Failed to migrate {visit.file}: {error.message}" ∈ summary.errors
  entries : List.Forall₂ (Reports rules options root summary.errors)
    ((visits rules options root tree files).filter (Visit.isNotable rules options root))
    summary.files
  inOrder : (summary.files.map FileMigration.file).Sublist files
  once : (summary.files.map FileMigration.file).Nodup
  migrated : summary.filesMigrated = summary.files.countP fun entry => entry.changes ≠ []
  changes : summary.totalChanges =
    Order.total (fun entry => entry.changes.length) summary.files
  elsewhere : ∀ place, ¬IsAccountedFor options root tree summary.files place →
    after.find? place = tree.find? place
  dry : options.dryRun = true → after = tree

/--
A summary accounts for every file of the run.  Each one is counted as processed or is an error, as
it cannot be read, and those with changes, errors or warnings have an entry, in their order.  The
totals are those of the entries.  A file that an entry reports as written holds the code that it was
migrated to, and one that could not be written has its error among the errors.  Nothing changes in the tree but what the entries
with changes lead to, and nothing at all in a dry run.
-/
theorem accounted_migrateFiles (distinct : files.Nodup) (analysis : Option MigrationAnalysis) :
    Accounted rules options root tree files
      (migrateFiles rules options root analysis tree files).1
      (migrateFiles rules options root analysis tree files).2 where
  processed := countP_isProcessed_steps rules options root tree files
  unread _ member _ failed := errors_of_unread rules options root tree files member failed
  entries := forall₂_reports rules options root tree files
  inOrder := map_file_sublist rules options root tree files
  once := distinct.sublist (map_file_sublist rules options root tree files)
  migrated := countP_hasChanges_steps rules options root tree files
  changes := total_changes_steps rules options root tree files
  elsewhere := (changedAt_steps rules options root tree files).elsewhere
  dry := steps_of_dryRun rules options root tree files

/-- Three files.  A directory is where the copy of the second one would go, and the second write
that finds its place cuts its file off. -/
def failingProject : FileTree :=
  { FileTree.ofFiles "/p" [("a.tsx", .text unclosedForm), ("b.tsx", .text unclosedForm),
      ("c.tsx", .text unclosedForm), ("b.tsx.backup/d", .text [])] with
    faults := [none, some ⟨.other "No space left on device (os error 28)", some (.text [])⟩] }

theorem accounted_migrateFiles_failing :
    ["b.tsx", "gone.tsx", "c.tsx", "a.tsx"].Nodup ∧
      ∃ after summary,
        migrateFiles MigrationRule.shipped default "/p" none failingProject
          ["b.tsx", "gone.tsx", "c.tsx", "a.tsx"] = (after, summary) ∧
        Accounted MigrationRule.shipped default "/p" failingProject
          ["b.tsx", "gone.tsx", "c.tsx", "a.tsx"] after summary ∧
        (summary.files.map fun entry => (entry.file, entry.written)) =
          [("b.tsx", false), ("c.tsx", false), ("a.tsx", true)] ∧
        "IO error on /p/c.tsx: No space left on device (os error 28)" ∈ summary.errors ∧
        after.readContent "/p/c.tsx.backup" = failingProject.readContent "/p/c.tsx" ∧
        after.readContent "/p/c.tsx" = .ok (.text []) := by
  have distinct : ["b.tsx", "gone.tsx", "c.tsx", "a.tsx"].Nodup := by decide
  have accounted :=
    accounted_migrateFiles MigrationRule.shipped default "/p" failingProject _ distinct none
  exact ⟨distinct, _, _, rfl, accounted, by decide +kernel⟩

end ComponentSurvey.Pipeline
