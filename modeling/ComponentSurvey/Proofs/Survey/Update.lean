import ComponentSurvey.Proofs.Order.TextSet
import ComponentSurvey.Proofs.Survey.Replay

/-!
# What an update changes

An update replaces what a survey holds of one file, in whatever order the lists of
the survey are.  What it holds of other files stays as it is, the report accounts for
the difference in issues, and the same update again changes nothing.
-/

namespace ComponentSurvey

namespace Order

variable {α : Type} {test : α → Bool}

theorem filter_insertAt_of_new {added : List α} (fails : ∀ value ∈ added, test value = false)
    (values : List α) (place : Nat) :
    (insertAt values place added).filter test = values.filter test := by
  have none : added.filter test = [] := by simpa using fails
  simp only [insertAt, List.filter_append, none, List.append_nil]
  rw [← List.filter_append, List.take_append_drop]

theorem filter_insertAt_of_old {values : List α} (fails : ∀ value ∈ values, test value = false)
    (place : Nat) (added : List α) :
    (insertAt values place added).filter test = added.filter test := by
  have front : (values.take place).filter test = [] := by
    simpa using fun value member => fails value (List.mem_of_mem_take member)
  have back : (values.drop place).filter test = [] := by
    simpa using fun value member => fails value (List.mem_of_mem_drop member)
  simp only [insertAt, List.filter_append, front, back, List.nil_append, List.append_nil]

theorem total_filter_add_total_filter_not (measure : α → Nat) (test : α → Bool)
    (values : List α) :
    total measure (values.filter test) +
        total measure (values.filter fun value => !test value) = total measure values := by
  induction values with
  | nil => rfl
  | cons value rest ih =>
      cases passed : test value <;> simp [passed] <;> omega

end Order

theorem UpdateReport.newIssues_sub_fixedIssues (report : UpdateReport) :
    (report.newIssues : Int) - report.fixedIssues =
        report.currentIssues - report.previousIssues ∧
      (report.newIssues = 0 ∨ report.fixedIssues = 0) := by
  simp only [newIssues, fixedIssues]
  omega

namespace Survey

section Values

variable {β : Type} (fileOf : β → String) (file : String)

def ownOf (values : List β) : List β :=
  values.filter fun value => Path.isSame (fileOf value) file

def othersOf (values : List β) : List β :=
  values.filter fun value => !Path.isSame (fileOf value) file

@[simp] theorem ownOf_othersOf (values : List β) :
    ownOf fileOf file (othersOf fileOf file values) = [] := by
  simp [ownOf, othersOf]

@[simp] theorem othersOf_othersOf (values : List β) :
    othersOf fileOf file (othersOf fileOf file values) = othersOf fileOf file values := by
  simp [othersOf]

variable {fileOf file} {added : List β}

/-- New values of a file leave those of others as they are, wherever they are put. -/
theorem othersOf_insertByFile
    (concerns : ∀ value ∈ added, Path.isSame (fileOf value) file = true)
    (spelled : String) (values : List β) :
    othersOf fileOf file (insertByFile fileOf spelled values added) =
      othersOf fileOf file values := by
  apply Order.filter_insertAt_of_new
  intro value member
  rw [concerns value member, Bool.not_true]

theorem ownOf_insertByFile
    (concerns : ∀ value ∈ added, Path.isSame (fileOf value) file = true)
    (spelled : String) (values : List β) :
    ownOf fileOf file (insertByFile fileOf spelled (othersOf fileOf file values) added) =
      added := by
  unfold ownOf insertByFile
  rw [Order.filter_insertAt_of_old, List.filter_eq_self]
  · exact concerns
  · intro value member
    simpa using (List.mem_filter.mp member).2

end Values

theorem isSame_of_mem_singleton (file : String) :
    ∀ path ∈ [file], Path.isSame (id path) file = true := by
  simp [Path.isSame]

/-- Two surveys differ in what they hold of one file at most. -/
structure AgreeBeyond (file : String) (first second : Survey) : Prop where
  root : first.root = second.root
  dependencies : first.dependencies = second.dependencies
  usages : othersOf Usage.file file first.usages = othersOf Usage.file file second.usages
  scannedFiles : othersOf id file first.scannedFiles = othersOf id file second.scannedFiles
  failures : othersOf FileFailure.file file first.failures =
    othersOf FileFailure.file file second.failures

/-- What a survey holds of a file is what an entry says. -/
structure Holds (survey : Survey) (entry : FileEntry) : Prop where
  usages : ownOf Usage.file entry.file survey.usages = entry.usages
  scanned : ownOf id entry.file survey.scannedFiles = entry.scanned
  failures : ownOf FileFailure.file entry.file survey.failures = entry.failures

theorem AgreeBeyond.without_eq {file : String} {first second : Survey}
    (agree : AgreeBeyond file first second) : first.without file = second.without file := by
  obtain ⟨root, dependencies, usages, scannedFiles, failures⟩ := agree
  unfold othersOf at usages scannedFiles failures
  simp only [id] at scannedFiles
  simp only [without, root, dependencies, usages, scannedFiles, failures]

variable (survey : Survey) (entry : FileEntry)

theorem agreeBeyond_without (file : String) : AgreeBeyond file (survey.without file) survey where
  root := rfl
  dependencies := rfl
  usages := othersOf_othersOf ..
  scannedFiles := othersOf_othersOf ..
  failures := othersOf_othersOf ..

theorem agreeBeyond_replaceFile :
    AgreeBeyond entry.file (survey.replaceFile entry.file entry.result) survey := by
  have ⟨root, dependencies, usages, scannedFiles, failures⟩ :=
    survey.agreeBeyond_without entry.file
  obtain ⟨file, result, concerns⟩ := entry
  cases result with
  | analyzed found =>
      have named := isSame_of_mem_singleton file
      exact ⟨root, dependencies, (othersOf_insertByFile concerns _ _).trans usages,
        (othersOf_insertByFile named _ _).trans scannedFiles, failures⟩
  | failed failure =>
      have named : ∀ other ∈ [failure], Path.isSame other.file file = true :=
        List.forall_mem_singleton.mpr concerns
      exact ⟨root, dependencies, usages, scannedFiles,
        (othersOf_insertByFile named _ _).trans failures⟩
  | removed => exact ⟨root, dependencies, usages, scannedFiles, failures⟩

theorem holds_replaceFile : (survey.replaceFile entry.file entry.result).Holds entry := by
  obtain ⟨file, result, concerns⟩ := entry
  cases result with
  | analyzed found =>
      have named := isSame_of_mem_singleton file
      exact ⟨ownOf_insertByFile concerns _ _, ownOf_insertByFile named _ _, ownOf_othersOf ..⟩
  | failed failure =>
      have named : ∀ other ∈ [failure], Path.isSame other.file file = true :=
        List.forall_mem_singleton.mpr concerns
      exact ⟨ownOf_othersOf .., ownOf_othersOf .., ownOf_insertByFile named _ _⟩
  | removed => exact ⟨ownOf_othersOf .., ownOf_othersOf .., ownOf_othersOf ..⟩

/-- Only what a survey holds of other files counts for what an update makes of it. -/
theorem replaceFile_replaceFile :
    (survey.replaceFile entry.file entry.result).replaceFile entry.file entry.result =
      survey.replaceFile entry.file entry.result := by
  rw [replaceFile, (survey.agreeBeyond_replaceFile entry).without_eq, ← replaceFile]

theorem issueTotal_usages (file : String) :
    issueTotal (survey.usagesIn file) + issueTotal (othersOf Usage.file file survey.usages) =
      issueTotal survey.usages :=
  Order.total_filter_add_total_filter_not _ _ _

theorem AgreeBeyond.issueTotal {file : String} {first second : Survey}
    (agree : AgreeBeyond file first second) :
    issueTotal first.usages + ComponentSurvey.issueTotal (second.usagesIn file) =
      ComponentSurvey.issueTotal second.usages +
        ComponentSurvey.issueTotal (first.usagesIn file) := by
  have firstTotal := first.issueTotal_usages file
  have secondTotal := second.issueTotal_usages file
  rw [agree.usages] at firstTotal
  omega

/-- What a report says of the file whose update made one survey of another. -/
structure Accounts (before after : Survey) (report : UpdateReport) : Prop where
  balance : ComponentSurvey.issueTotal after.usages + report.previousIssues =
    ComponentSurvey.issueTotal before.usages + report.currentIssues
  difference : (report.newIssues : Int) - report.fixedIssues =
    report.currentIssues - report.previousIssues
  oneSided : report.newIssues = 0 ∨ report.fixedIssues = 0
  tags : ∀ tag, tag ∈ report.patterns ↔
    ∃ usage ∈ after.usages, Path.isSame usage.file report.file = true ∧ tag ∈ usage.patterns
  tagsInOrder : report.patterns.Pairwise (· < ·)

theorem accounts_update :
    Accounts survey (survey.update entry.file entry.result).1
      (survey.update entry.file entry.result).2 where
  balance := (survey.agreeBeyond_replaceFile entry).issueTotal
  difference := (UpdateReport.newIssues_sub_fixedIssues _).1
  oneSided := (UpdateReport.newIssues_sub_fixedIssues _).2
  tags tag := by
    simp only [update, updateReport, Order.mem_textSet, List.mem_flatMap, usagesIn,
      List.mem_filter, and_assoc]
  tagsInOrder := Order.pairwise_textSet _

/-- An update that is made again finds everything as it should be. -/
theorem update_again :
    (survey.update entry.file entry.result).1.update entry.file entry.result =
      ((survey.update entry.file entry.result).1,
        updateReport (survey.update entry.file entry.result).1
          (survey.update entry.file entry.result).1 entry.file) := by
  simp only [update, survey.replaceFile_replaceFile entry]

/--
An update of a file keeps what a survey holds of all others, in its order, and the
survey then holds of the file what the update says.  The report accounts for the
issues of the survey and lists the tags on the file.  The same update again leaves the
survey as it is and reports no issue as new or fixed.
-/
theorem update_keeps_and_settles :
    ∃ after report again, survey.update entry.file entry.result = (after, report) ∧
      report.file = entry.file ∧ AgreeBeyond entry.file after survey ∧ after.Holds entry ∧
      Accounts survey after report ∧
      after.update entry.file entry.result = (after, again) ∧
      again.newIssues = 0 ∧ again.fixedIssues = 0 :=
  ⟨_, _, _, rfl, rfl, survey.agreeBeyond_replaceFile entry, survey.holds_replaceFile entry,
    survey.accounts_update entry, survey.update_again entry, Nat.sub_self _, Nat.sub_self _⟩

end Survey

end ComponentSurvey
