import ComponentSurvey.Proofs.Order.Partition
import ComponentSurvey.Proofs.Survey.FileTable
import ComponentSurvey.Survey.Scan

/-!
# Updating a survey and surveying anew

A survey of a file table that is updated file by file is the survey of the table
that keeps the last word on every file.
-/

namespace ComponentSurvey

namespace FileEntry

def usages (entry : FileEntry) : List Usage := entry.result.usages

def scanned (entry : FileEntry) : List String :=
  if entry.result.isAnalyzed then [entry.file] else []

def failures (entry : FileEntry) : List FileFailure := entry.result.failure?.toList

def Attributed {β : Type} (part : FileEntry → List β) (fileOf : β → String) : Prop :=
  ∀ entry, ∀ value ∈ part entry, Path.place (fileOf value) = entry.place

theorem attributed_usages : Attributed usages Usage.file := by
  rintro ⟨file, result, concerns⟩ usage member
  cases result with
  | analyzed usages => exact Path.isSame_iff.mp (concerns usage member)
  | failed failure => cases member
  | removed => cases member

theorem attributed_scanned : Attributed scanned id := by
  intro entry path member
  simp only [scanned, List.mem_ite_nil_right, List.mem_singleton] at member
  rw [member.2, id, place]

theorem attributed_failures : Attributed failures FileFailure.file := by
  rintro ⟨file, result, concerns⟩ failure member
  cases result with
  | analyzed usages => cases member
  | failed found =>
      rw [List.mem_singleton.mp member]
      exact Path.isSame_iff.mp concerns
  | removed => cases member

variable {β : Type} {part : FileEntry → List β} {fileOf : β → String}

theorem filter_flatMap (attributed : Attributed part fileOf) (file : String)
    (entries : List FileEntry) :
    (entries.flatMap part).filter (fun value => !Path.isSame (fileOf value) file) =
      (entries.filter fun entry => !Path.isSame entry.file file).flatMap part := by
  induction entries with
  | nil => rfl
  | cons entry rest ih =>
      have uniform : ∀ value ∈ part entry,
          Path.isSame (fileOf value) file = Path.isSame entry.file file := by
        intro value member
        rw [Bool.eq_iff_iff, Path.isSame_iff, Path.isSame_iff,
          attributed entry value member, place]
      rw [List.flatMap_cons, List.filter_append, ih, List.filter_cons]
      cases isHere : Path.isSame entry.file file with
      | true =>
          rw [List.filter_eq_nil_iff.mpr]
          · rfl
          · intro value member
            rw [uniform value member, isHere]
            exact Bool.false_ne_true
      | false =>
          rw [List.filter_eq_self.mpr]
          · rfl
          · intro value member
            rw [uniform value member, isHere]
            rfl

/-- New values of a file go between those of the files before and after it. -/
theorem insertByFile_flatMap (attributed : Attributed part fileOf) {file : String}
    {front back : List FileEntry}
    (isBefore : ∀ entry ∈ front, entry.place < Path.place file)
    (isAfter : ∀ entry ∈ back, Path.place file < entry.place) (added : List β) :
    Survey.insertByFile fileOf file ((front ++ back).flatMap part) added =
      front.flatMap part ++ added ++ back.flatMap part := by
  rw [Survey.insertByFile, List.flatMap_append]
  apply Order.insertAt_partitionPoint
  · intro value member
    obtain ⟨entry, inFront, ofEntry⟩ := List.mem_flatMap.mp member
    rw [Path.isLess_iff, attributed entry value ofEntry]
    exact isBefore entry inFront
  · intro value member
    obtain ⟨entry, inBack, ofEntry⟩ := List.mem_flatMap.mp member
    rw [← Bool.not_eq_true, Path.isLess_iff, attributed entry value ofEntry]
    exact lt_asymm (isAfter entry inBack)

end FileEntry

namespace Survey

variable (root : String) (dependencies : DependencyReport)

def ofEntries (entries : List FileEntry) : Survey :=
  .ofResults root dependencies (entries.map fun entry => (entry.file, entry.result))

theorem ofEntries_eq (entries : List FileEntry) :
    ofEntries root dependencies entries =
      { root := root
        usages := entries.flatMap FileEntry.usages
        scannedFiles := entries.flatMap FileEntry.scanned
        failures := entries.flatMap FileEntry.failures
        dependencies := dependencies } := by
  have scanned : ((entries.map fun entry => (entry.file, entry.result)).filter
      fun entry => entry.2.isAnalyzed).map Prod.fst =
      entries.flatMap FileEntry.scanned := by
    induction entries with
    | nil => rfl
    | cons entry rest ih =>
        rw [List.map_cons, List.filter_cons, List.flatMap_cons, ← ih,
          FileEntry.scanned]
        split <;> simp
  have failures : (entries.map fun entry => (entry.file, entry.result)).filterMap
      (fun entry => entry.2.failure?) = entries.flatMap FileEntry.failures := by
    rw [List.filterMap_map, List.filterMap_eq_flatMap_toList]
    rfl
  rw [ofEntries, ofResults, scanned, failures, List.flatMap_map]
  rfl

theorem without_ofEntries (entries : List FileEntry) (file : String) :
    (ofEntries root dependencies entries).without file =
      ofEntries root dependencies
        (entries.filter fun entry => !Path.isSame entry.file file) := by
  simp only [ofEntries_eq, without]
  rw [FileEntry.filter_flatMap FileEntry.attributed_usages,
    FileEntry.filter_flatMap FileEntry.attributed_failures]
  have scanned := FileEntry.filter_flatMap FileEntry.attributed_scanned file entries
  simp only [id] at scanned
  rw [scanned]

theorem record_ofEntries (entry : FileEntry) {front back : List FileEntry}
    (isBefore : ∀ other ∈ front, other.place < entry.place)
    (isAfter : ∀ other ∈ back, entry.place < other.place) :
    (ofEntries root dependencies (front ++ back)).record entry.file entry.result =
      ofEntries root dependencies (front ++ entry.remainder ++ back) := by
  obtain ⟨file, result, concerns⟩ := entry
  cases result with
  | analyzed usages =>
      simp only [ofEntries_eq, record]
      rw [FileEntry.insertByFile_flatMap FileEntry.attributed_usages isBefore isAfter,
        FileEntry.insertByFile_flatMap FileEntry.attributed_scanned isBefore isAfter]
      simp [FileEntry.remainder, FileEntry.isRemoval, FileEntry.usages,
        FileEntry.scanned, FileEntry.failures, FileResult.usages,
        FileResult.isAnalyzed, FileResult.failure?]
  | failed failure =>
      -- a failure is put in its place by the spelling of its own path
      have same : Path.place failure.file = Path.place file :=
        Path.isSame_iff.mp concerns
      simp only [FileEntry.place, ← same] at isBefore isAfter
      simp only [ofEntries_eq, record]
      rw [FileEntry.insertByFile_flatMap FileEntry.attributed_failures isBefore isAfter]
      simp [FileEntry.remainder, FileEntry.isRemoval, FileEntry.usages,
        FileEntry.scanned, FileEntry.failures, FileResult.usages,
        FileResult.isAnalyzed, FileResult.failure?]
  | removed =>
      simp [FileEntry.remainder, FileEntry.isRemoval, record]

end Survey

def FileTable.survey (root : String) (dependencies : DependencyReport)
    (table : FileTable) : Survey :=
  .ofEntries root dependencies table.entries

namespace Survey

variable (root : String) (dependencies : DependencyReport)

theorem replaceFile_survey (table : FileTable) (entry : FileEntry) :
    (table.survey root dependencies).replaceFile entry.file entry.result =
      (table.put entry).survey root dependencies := by
  rw [replaceFile, FileTable.survey, without_ofEntries, ← table.before_append_after]
  exact record_ofEntries root dependencies entry
    (fun _ isBefore => (FileTable.mem_before.mp isBefore).2)
    (fun _ isAfter => (FileTable.mem_after.mp isAfter).2)

def replaceAll (survey : Survey) (updates : List FileEntry) : Survey :=
  updates.foldl (fun survey entry => survey.replaceFile entry.file entry.result) survey

theorem replaceAll_survey (table : FileTable) (updates : List FileEntry) :
    (table.survey root dependencies).replaceAll updates =
      (table.settle updates).survey root dependencies := by
  induction updates generalizing table with
  | nil => rw [table.settle_nil, replaceAll, List.foldl_nil]
  | cons entry rest ih =>
      rw [replaceAll, List.foldl_cons, replaceFile_survey, ← table.settle_put]
      exact ih (table.put entry)

/--
Updating file by file comes to what surveying the last word on every file comes
to, in all fields and so in all summaries, and in whatever order the updates of
different files are made.
-/
theorem replaceAll_eq_survey_settle (table : FileTable) (updates : List FileEntry) :
    (table.survey root dependencies).replaceAll updates =
        (table.settle updates).survey root dependencies ∧
      ∀ others : List FileEntry,
        (∀ file, others.filter (FileEntry.isAt file) =
          updates.filter (FileEntry.isAt file)) →
        (table.survey root dependencies).replaceAll others =
          (table.survey root dependencies).replaceAll updates := by
  refine ⟨replaceAll_survey root dependencies table updates, ?_⟩
  intro others agree
  rw [replaceAll_survey, replaceAll_survey, table.settle_congr agree]

end Survey

end ComponentSurvey
