import ComponentSurvey.Proofs.Survey.PatternSummary
import ComponentSurvey.Proofs.Survey.Replay

/-!
# Summaries after updates

Every update makes the summaries of a result anew, so that they are those of its lists whatever was
kept before.  Told by the files of a table, the counters are sums over the files, and the usages to
migrate are those of one file after the other.
-/

open ComponentSurvey.Order

namespace ComponentSurvey

theorem Order.measure_flatMap {α β : Type} {measure : List β → Nat} (none : measure [] = 0)
    (both : ∀ first second, measure (first ++ second) = measure first + measure second)
    (part : α → List β) (values : List α) :
    measure (values.flatMap part) = total (fun value => measure (part value)) values := by
  induction values with
  | nil => exact none
  | cons value rest ih => rw [List.flatMap_cons, both, ih, total_cons]

namespace SurveyResult

structure IsFolded (result : SurveyResult) : Prop where
  statistics : result.statistics = result.survey.statistics
  patterns : result.patterns = result.survey.patterns
  migration : result.migration = result.survey.migration

variable {result : SurveyResult} {root : String} {dependencies : DependencyReport}

theorem isFolded_refold (result : SurveyResult) : result.refold.IsFolded := ⟨rfl, rfl, rfl⟩

theorem IsFolded.eq_ofSurvey (folded : result.IsFolded) : result = ofSurvey result.survey := by
  rw [ofSurvey, refold, ← folded.statistics, ← folded.patterns, ← folded.migration]

theorem isFolded_replaceFile (result : SurveyResult) (file : String) (known : FileResult) :
    (result.replaceFile file known).1.IsFolded :=
  isFolded_refold _

def replaceAll (result : SurveyResult) (updates : List FileEntry) : SurveyResult :=
  updates.foldl (fun result entry => (result.replaceFile entry.file entry.result).1) result

theorem IsFolded.replaceAll (folded : result.IsFolded) (updates : List FileEntry) :
    (result.replaceAll updates).IsFolded := by
  induction updates generalizing result with
  | nil => exact folded
  | cons entry rest ih => exact ih (isFolded_replaceFile result entry.file entry.result)

theorem survey_replaceAll (result : SurveyResult) (updates : List FileEntry) :
    (result.replaceAll updates).survey = result.survey.replaceAll updates := by
  induction updates generalizing result with
  | nil => rfl
  | cons entry rest ih => exact ih (result.replaceFile entry.file entry.result).1

theorem isFolded_ofSurvey (survey : Survey) : (ofSurvey survey).IsFolded := isFolded_refold _

/-- The result of a table that is updated file by file is that of the table which keeps the last
word on every file, with its statistics, its patterns and its outlook on a migration. -/
theorem replaceAll_ofSurvey (table : FileTable) (updates : List FileEntry) :
    (ofSurvey (table.survey root dependencies)).replaceAll updates =
      ofSurvey ((table.settle updates).survey root dependencies) := by
  rw [((isFolded_ofSurvey _).replaceAll updates).eq_ofSurvey, survey_replaceAll,
    ← Survey.replaceAll_survey]
  rfl

structure SumsUp (entries : List FileEntry) (result : SurveyResult) : Prop where
  usages : result.statistics.totalComponents = total (fun entry => entry.usages.length) entries
  resolved : result.statistics.libraryComponents =
    total (fun entry => entry.usages.countP fun usage => usage.importResolved) entries
  first : result.statistics.firstGeneration =
    total (fun entry => entry.usages.countP fun usage => usage.generation = .v1) entries
  second : result.statistics.secondGeneration =
    total (fun entry => entry.usages.countP fun usage => usage.generation = .v2) entries
  issues : result.statistics.issuesFound = total (fun entry => issueTotal entry.usages) entries
  scanned : result.statistics.filesScanned = entries.countP fun entry => entry.result.isAnalyzed
  everyFile : result.statistics.filesScanned + result.statistics.filesFailed = entries.length
  detected : ∀ name, name ∈ result.patterns.detected ↔
    ∃ pattern ∈ Library.projectPatterns,
      ((∀ component ∈ pattern.components,
          ∃ entry ∈ entries, ∃ usage ∈ entry.usages, usage.name = component) ∨
        ∃ entry ∈ entries, ∃ usage ∈ entry.usages, usage.hasPattern pattern.name = true) ∧
      pattern.name = name
  candidates : result.migration.candidates =
    entries.flatMap fun entry => entry.usages.filter Usage.isCandidate

theorem length_scanned (entries : List FileEntry) :
    (entries.flatMap FileEntry.scanned).length =
      entries.countP fun entry => entry.result.isAnalyzed := by
  induction entries with
  | nil => rfl
  | cons entry rest ih =>
      rw [List.flatMap_cons, List.length_append, ih, List.countP_cons, FileEntry.scanned]
      split <;> simp [Nat.add_comm]

/-- A file that is there was analyzed or failed. -/
theorem length_scanned_add_length_failures {entries : List FileEntry}
    (present : ∀ entry ∈ entries, entry.isRemoval = false) :
    (entries.flatMap FileEntry.scanned).length + (entries.flatMap FileEntry.failures).length =
      entries.length := by
  induction entries with
  | nil => rfl
  | cons entry rest ih =>
      obtain ⟨here, others⟩ := List.forall_mem_cons.mp present
      have one : entry.scanned.length + entry.failures.length = 1 := by
        obtain ⟨file, result, concerns⟩ := entry
        cases result with
        | analyzed usages => rfl
        | failed failure => rfl
        | removed => cases here
      have rest := ih others
      simp only [List.flatMap_cons, List.length_append, List.length_cons]
      omega

theorem sumsUp_ofSurvey (root : String) (dependencies : DependencyReport) (table : FileTable) :
    SumsUp table.entries (ofSurvey (table.survey root dependencies)) := by
  rw [FileTable.survey, Survey.ofEntries_eq]
  have issueTotal_append (first second : List Usage) :
      issueTotal (first ++ second) = issueTotal first + issueTotal second :=
    total_append _ first second
  exact {
    usages := measure_flatMap rfl (fun _ _ => List.length_append) _ _
    resolved := measure_flatMap rfl (fun _ _ => List.countP_append) _ _
    first := measure_flatMap rfl (fun _ _ => List.countP_append) _ _
    second := measure_flatMap rfl (fun _ _ => List.countP_append) _ _
    issues := measure_flatMap rfl issueTotal_append _ _
    scanned := length_scanned table.entries
    everyFile := length_scanned_add_length_failures table.present
    detected := by
      intro name
      rw [(isFolded_ofSurvey _).patterns]
      simp [Survey.patterns, ofSurvey, refold, PatternSummary.mem_detected, isDetected,
        usesComponent]
    candidates := List.filter_flatMap }

/-- Updates file by file leave summaries of the last word on every file. -/
theorem sumsUp_replaceAll (root : String) (dependencies : DependencyReport) (table : FileTable)
    (updates : List FileEntry) :
    SumsUp (table.settle updates).entries
      ((ofSurvey (table.survey root dependencies)).replaceAll updates) := by
  rw [replaceAll_ofSurvey]
  exact sumsUp_ofSurvey root dependencies (table.settle updates)

end SurveyResult

end ComponentSurvey
