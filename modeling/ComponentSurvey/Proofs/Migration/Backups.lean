import ComponentSurvey.Proofs.Glob.Endings
import ComponentSurvey.Proofs.Migration.Accounting
import ComponentSurvey.Proofs.Survey.Rescan

/-!
# Copies of files that are migrated

The copy of a file goes to another file of the same directory, and that may be a file of the run
itself.  Where no file that changes is the copy of another one, every copy holds what the file held
before the run.
-/

namespace ComponentSurvey

/-! ## Where copies go -/

def Place.backup : Place → Place
  | [] => []
  | [name] => [name ++ ".backup".toList]
  | directory :: next :: rest => directory :: Place.backup (next :: rest)

theorem Path.IsName.backup {name : List Char} (named : IsName name) :
    IsName (name ++ ".backup".toList) where
  isPart := by
    have longer : 2 < (name ++ ".backup".toList).length := by simp
    generalize name ++ ".backup".toList = text at longer
    match text, longer with
    | _ :: _ :: _ :: _, _ => simp [innerPart?]
  noSlash member := by
    rcases List.mem_append.mp member with inFront | inEnd
    · exact named.noSlash inFront
    · revert inEnd
      decide

namespace Place

variable {place other : Place}

theorem backup_ne_nil (nonempty : place ≠ []) : place.backup ≠ [] := by
  cases place using Place.backup.fun_cases with
  | case1 => exact nonempty
  | case2 name => simp [backup]
  | case3 directory next rest => simp [backup]

theorem IsPlain.backup (plain : place.IsPlain) : place.backup.IsPlain where
  nonempty := backup_ne_nil plain.nonempty
  named := by
    have named := plain.named
    clear plain
    induction place using Place.backup.induct with
    | case1 => exact named
    | case2 name =>
        rw [Place.backup]
        exact List.forall_mem_singleton.mpr (named name List.mem_cons_self).backup
    | case3 directory next rest ih =>
        obtain ⟨first, others⟩ := List.forall_mem_cons.mp named
        rw [Place.backup]
        exact List.forall_mem_cons.mpr ⟨first, ih others⟩

theorem toList_path_backup (nonempty : place ≠ []) :
    place.backup.path.toList = place.path.toList ++ ".backup".toList := by
  rw [path, path, String.toList_ofList, String.toList_ofList]
  induction place using Place.backup.induct with
  | case1 => exact absurd rfl nonempty
  | case2 name => simp [backup]
  | case3 directory next rest ih =>
      have inner : Place.backup (next :: rest) ≠ [] := backup_ne_nil (List.cons_ne_nil _ _)
      rw [backup, List.intercalate_cons_of_ne_nil inner, ih (List.cons_ne_nil _ _),
        List.intercalate_cons_of_ne_nil (List.cons_ne_nil _ _)]
      simp

theorem path_backup (nonempty : place ≠ []) : place.backup.path = backupPath place.path := by
  rw [← String.toList_inj, toList_path_backup nonempty, backupPath, String.toList_append]

theorem getLast?_backup : place.backup.getLast? = place.getLast?.map (· ++ ".backup".toList) := by
  induction place using Place.backup.induct with
  | case1 => rfl
  | case2 name => rfl
  | case3 directory next rest ih =>
      have inner : Place.backup (next :: rest) ≠ [] := backup_ne_nil (List.cons_ne_nil _ _)
      obtain ⟨first, others, split⟩ := List.exists_cons_of_ne_nil inner
      rw [backup, List.getLast?_cons_cons, ← ih, split, List.getLast?_cons_cons]

theorem backup_ne (nonempty : place ≠ []) : place.backup ≠ place := by
  intro same
  have paths := congrArg (fun place : Place => place.path.toList) same
  simp [toList_path_backup nonempty] at paths

end Place

theorem backupPath_inj {first second : String} (same : backupPath first = backupPath second) :
    first = second := by
  have lists := congrArg String.toList same
  rw [backupPath, backupPath, String.toList_append, String.toList_append] at lists
  exact String.toList_inj.mp (List.append_cancel_right lists)

theorem backupPath_join {root : String} (nonempty : root ≠ "") {names : Place}
    (plain : names.IsPlain) :
    backupPath (Path.join root names.path) = Path.join root names.backup.path := by
  rw [← String.toList_inj, backupPath, String.toList_append, Path.toList_join nonempty plain,
    Path.toList_join nonempty plain.backup, Place.toList_path_backup plain.nonempty]
  split <;> simp

/-! ## Where saving a file leaves traces -/

namespace FileTree

variable {tree : FileTree} {root : String} {directory names place : Place}

theorem eq_of_locate_join (there : tree.HasDirectory root directory) (plain : names.IsPlain)
    (located : tree.locate (Path.join root names.path) = .ok place) :
    place = directory ++ names := by
  rw [locate_join there.formed there.located plain] at located
  exact foldlM_enter plain.named located

theorem HasDirectory.root_ne (there : tree.HasDirectory root directory) : root ≠ "" := by
  obtain ⟨body, absolute⟩ := absolute_of_locate there.formed there.located
  rintro rfl
  cases absolute

theorem eq_of_isSavedAt (there : tree.HasDirectory root directory) (plain : names.IsPlain)
    (saved : tree.IsSavedAt (Path.join root names.path) place) :
    place = directory ++ names ∨ place = directory ++ names.backup := by
  rcases saved with located | located
  · exact .inl (eq_of_locate_join there plain located)
  · rw [backupPath_join there.root_ne plain] at located
    exact .inr (eq_of_locate_join there plain.backup located)

end FileTree

namespace Pipeline

variable {rules : List MigrationRule} {options : MigrationOptions} {root : String}
  {tree : FileTree} {directory : Place}

/-! ## Runs -/

/-- The files of a run, each spelled plainly and named once. -/
structure NamedOnce (files : List String) : Prop where
  plain : ∀ file ∈ files, ∃ names : Place, names.IsPlain ∧ file = names.path
  distinct : files.Nodup

/-- No file with changes is the copy of another one. -/
def CopiesApart (entries : List FileMigration) : Prop :=
  ∀ first ∈ entries, first.changes ≠ [] → ∀ second ∈ entries, second.changes ≠ [] →
    second.file ≠ backupPath first.file

/-- The copy of every file that was written holds what was in the file before. -/
def CopiesHoldOriginals (root : String) (before after : FileTree)
    (entries : List FileMigration) : Prop :=
  ∀ entry ∈ entries, entry.written = true →
    ∃ content, before.readContent (Path.join root entry.file) = .ok content ∧
      after.readContent (backupPath (Path.join root entry.file)) = .ok content

/-- The copy is made of what the step finds, and the step leaves it there. -/
theorem copied_of_written {visit : Visit} {entry : FileMigration} (backs : options.backup = true)
    (reported : visit.report? rules options root = some entry) (written : entry.written = true) :
    entry.file = visit.file ∧ entry.changes ≠ [] ∧
      ∃ content code middle,
        visit.found.readContent (Path.join root visit.file) = .ok content ∧
        visit.found.write (backupPath (Path.join root visit.file)) content = (middle, none) ∧
        middle.write (Path.join root visit.file) (.text code) =
          ((visit.result rules options root).1, none) := by
  have reports := reports_of_report? reported
  rw [Visit.report?] at reported
  have stepped := visit.stepped rules options root
  generalize visit.result rules options root = result at stepped reported ⊢
  obtain ⟨after, report⟩ := result
  cases stepped with
  | unread error failed => cases reported
  | left outcome migrated idle =>
      rw [ofStep?_processed migrated, Option.ite_none_right_eq_some] at reported
      rw [← Option.some.inj reported.2] at written
      cases written
  | saved outcome code migrated hasCode changed real =>
      refine ⟨reports.file, (reports.written written).1, ?_⟩
      rw [ofStep?_processed migrated, Option.ite_none_right_eq_some] at reported
      rw [← Option.some.inj reported.2, backs] at written
      obtain ⟨content, middle, read, copied, wrote⟩ :=
        FileTree.copied_of_save (of_decide_eq_true written)
      rw [backs]
      exact ⟨content, code, middle, read, copied, wrote⟩

theorem find?_backup_of_written {changed : Place → Prop} {visit : Visit} {entry : FileMigration}
    {names : Place} (there : tree.HasDirectory root directory)
    (reach : tree.ChangedAt changed visit.found) (plain : names.IsPlain)
    (spelled : visit.file = names.path) (backs : options.backup = true)
    (reported : visit.report? rules options root = some entry) (written : entry.written = true) :
    ∃ content, visit.found.find? (directory ++ names) = some (.file content) ∧
      tree.locate (Path.join root visit.file) = .ok (directory ++ names) ∧
      tree.locate (backupPath (Path.join root visit.file)) = .ok (directory ++ names.backup) ∧
      (visit.result rules options root).1.find? (directory ++ names.backup) =
        some (.file content) := by
  obtain ⟨-, -, content, code, middle, read, copied, wrote⟩ :=
    copied_of_written backs reported written
  rw [spelled] at read copied wrote ⊢
  obtain ⟨place, located, stands⟩ := FileTree.readContent_eq_ok_iff.mp read
  obtain rfl := FileTree.eq_of_locate_join there plain (reach.locate_iff.mp located)
  have change := visit.found.changedAt_write (backupPath (Path.join root names.path)) content
  rw [copied] at change
  obtain ⟨copy, copyLocated, -, rfl⟩ := FileTree.put_of_write copied
  have copyPath := backupPath_join there.root_ne plain
  obtain rfl := FileTree.eq_of_locate_join there plain.backup
    (copyPath ▸ reach.locate_iff.mp copyLocated)
  obtain ⟨place, located', -, isAfter⟩ := FileTree.put_of_write wrote
  obtain rfl := Except.ok.inj (located.symm.trans (change.locate_iff.mp located'))
  refine ⟨content, stands, reach.locate_iff.mp located, reach.locate_iff.mp copyLocated, ?_⟩
  have inside {place : Place} (nonempty : place ≠ []) : directory ++ place ≠ [] :=
    List.append_ne_nil_of_right_ne_nil _ nonempty
  rw [isAfter, FileTree.find?_put _ _ _ (inside plain.nonempty), if_neg, FileTree.find?_pastFault,
    FileTree.find?_put _ _ _ (inside plain.backup.nonempty), if_pos rfl]
  intro same
  exact Place.backup_ne plain.nonempty (List.append_cancel_left same)

/-- A place keeps what it has if no file with changes is there and no copy of one. -/
theorem find?_steps_of_apart {changed : Place → Prop} {now : FileTree} {files : List String}
    {names : Place} (there : tree.HasDirectory root directory)
    (reach : tree.ChangedAt changed now)
    (spelled : ∀ file ∈ files, ∃ names : Place, names.IsPlain ∧ file = names.path)
    (apart : ∀ entry ∈ (steps rules options root now files).2.filterMap FileMigration.ofStep?,
      entry.changes ≠ [] → names.path ≠ entry.file ∧ names.path ≠ backupPath entry.file) :
    (steps rules options root now files).1.find? (directory ++ names) =
      now.find? (directory ++ names) := by
  apply (changedAt_steps rules options root now files).elsewhere
  rintro ⟨-, entry, member, changed, saved⟩
  have listed := (map_file_sublist rules options root now files).subset
    (List.mem_map_of_mem member)
  obtain ⟨other, plain, isPath⟩ := spelled entry.file listed
  have savedAt : tree.IsSavedAt (Path.join root other.path) (directory ++ names) :=
    isPath ▸ saved.imp reach.locate_iff.mp reach.locate_iff.mp
  obtain ⟨notFile, notCopy⟩ := apart entry member changed
  rcases FileTree.eq_of_isSavedAt there plain savedAt with isFile | isCopy
  · exact notFile (by rw [isPath, List.append_cancel_left isFile])
  · exact notCopy (by rw [isPath, List.append_cancel_left isCopy, Place.path_backup plain.nonempty])

section Apart

variable {changed : Place → Prop} {now : FileTree} {files : List String} {file : String}
  {names : Place} (there : tree.HasDirectory root directory) (reach : tree.ChangedAt changed now)
  (spelled : ∀ file ∈ files, ∃ names : Place, names.IsPlain ∧ file = names.path)
  (isPath : file = names.path) (notListed : file ∉ files)

include there reach spelled isPath notListed

theorem find?_steps_of_not_copy
    (notCopy : ∀ entry ∈ (steps rules options root now files).2.filterMap FileMigration.ofStep?,
      entry.changes ≠ [] → file ≠ backupPath entry.file) :
    (steps rules options root now files).1.find? (directory ++ names) =
      now.find? (directory ++ names) := by
  apply find?_steps_of_apart there reach spelled
  intro entry member changed
  have listed := (map_file_sublist rules options root now files).subset
    (List.mem_map_of_mem member)
  rw [← isPath]
  exact ⟨fun same => notListed (same ▸ listed), notCopy entry member changed⟩

theorem find?_backup_steps_of_apart (nonempty : names ≠ [])
    (notFile : ∀ entry ∈ (steps rules options root now files).2.filterMap FileMigration.ofStep?,
      entry.changes ≠ [] → entry.file ≠ backupPath file) :
    (steps rules options root now files).1.find? (directory ++ names.backup) =
      now.find? (directory ++ names.backup) := by
  apply find?_steps_of_apart there reach spelled
  intro entry member changed
  have listed := (map_file_sublist rules options root now files).subset
    (List.mem_map_of_mem member)
  rw [Place.path_backup nonempty, ← isPath]
  exact ⟨(notFile entry member changed).symm,
    fun sameCopy => notListed (backupPath_inj sameCopy ▸ listed)⟩

end Apart

/-! ## The turn of a file -/

variable (rules options root tree) in
/-- A run goes through the files in front of one, then comes to it, and then to those behind. -/
structure IsTurn (files front back : List String) (visit : Visit) (entry : FileMigration) :
    Prop where
  split : files = front ++ visit.file :: back
  found : visit.found = (steps rules options root tree front).1
  reported : visit.report? rules options root = some entry
  after : (steps rules options root tree files).1 =
    (steps rules options root (visit.result rules options root).1 back).1
  entries : (steps rules options root tree files).2.filterMap FileMigration.ofStep? =
    (steps rules options root tree front).2.filterMap FileMigration.ofStep? ++ entry ::
      (steps rules options root (visit.result rules options root).1 back).2.filterMap
        FileMigration.ofStep?

theorem exists_turn {files : List String} {entry : FileMigration}
    (member : entry ∈ (steps rules options root tree files).2.filterMap FileMigration.ofStep?) :
    ∃ front back visit, IsTurn rules options root tree files front back visit entry := by
  rw [filterMap_ofStep?_steps] at member
  obtain ⟨visit, isVisit, reported⟩ := List.mem_filterMap.mp member
  obtain ⟨front, back, rfl, found⟩ := exists_front_of_mem_visits rules options root isVisit
  have run := steps_at options root rules tree front visit.file back
  dsimp only at run
  rw [← found, ← Visit.result] at run
  refine ⟨front, back, visit, rfl, found, reported, by rw [run], ?_⟩
  rw [run, List.filterMap_append, List.filterMap_cons, ← Visit.report?, reported]

namespace IsTurn

variable {files front back : List String} {visit : Visit} {entry : FileMigration} {names : Place}
  (turn : IsTurn rules options root tree files front back visit entry)
  (there : tree.HasDirectory root directory) (named : NamedOnce files)
  (isPath : visit.file = names.path) (changed : entry.changes ≠ [])
  (apart : CopiesApart ((steps rules options root tree files).2.filterMap FileMigration.ofStep?))

include turn in
theorem file_eq : entry.file = visit.file := (reports_of_report? turn.reported).file

include turn in
theorem changedAt_found : tree.ChangedAt (fun _ => True) visit.found := by
  rw [turn.found]
  exact (changedAt_steps rules options root tree front).mono fun _ _ => trivial

include turn named in
theorem notListed : visit.file ∉ front ∧ visit.file ∉ back := by
  have distinct := turn.split ▸ named.distinct
  rw [List.nodup_middle, List.nodup_cons, List.mem_append, not_or] at distinct
  exact distinct.1

include turn there named isPath changed apart

/-- What stands in the file when its turn comes stood there from the beginning. -/
theorem find?_found :
    visit.found.find? (directory ++ names) = tree.find? (directory ++ names) := by
  have spelled : ∀ file ∈ front, ∃ names : Place, names.IsPlain ∧ file = names.path :=
    fun file listed => named.plain file (turn.split ▸ List.mem_append_left _ listed)
  rw [turn.found]
  apply find?_steps_of_not_copy there (.refl (fun _ => True) tree) spelled isPath
    (turn.notListed named).1
  intro other isOther otherChanged
  rw [turn.entries] at apart
  rw [← turn.file_eq]
  exact apart other (List.mem_append_left _ isOther) otherChanged entry (by simp) changed

/-- What stands in the copy when the turn is over stays there to the end. -/
theorem find?_backup (nonempty : names ≠ []) :
    (steps rules options root tree files).1.find? (directory ++ names.backup) =
      (visit.result rules options root).1.find? (directory ++ names.backup) := by
  have reach : tree.ChangedAt (fun _ => True) (visit.result rules options root).1 :=
    turn.changedAt_found.trans
      ((changedAt_result rules options root visit).mono fun _ _ => trivial)
  have spelled : ∀ file ∈ back, ∃ names : Place, names.IsPlain ∧ file = names.path :=
    fun file listed => named.plain file
      (turn.split ▸ List.mem_append_right _ (List.mem_cons_of_mem _ listed))
  rw [turn.after]
  apply find?_backup_steps_of_apart there reach spelled isPath (turn.notListed named).2 nonempty
  intro other isOther otherChanged
  rw [turn.entries] at apart
  rw [← turn.file_eq]
  exact apart entry (by simp) changed other
    (List.mem_append_right _ (List.mem_cons_of_mem _ isOther)) otherChanged

end IsTurn

theorem copiesHoldOriginals_migrateFiles {files : List String}
    (there : tree.HasDirectory root directory) (backs : options.backup = true)
    (named : NamedOnce files) (analysis : Option MigrationAnalysis)
    (apart : CopiesApart (migrateFiles rules options root analysis tree files).2.files) :
    CopiesHoldOriginals root tree (migrateFiles rules options root analysis tree files).1
      (migrateFiles rules options root analysis tree files).2.files := by
  intro entry member written
  obtain ⟨front, back, visit, turn⟩ := exists_turn member
  obtain ⟨names, plain, isPath⟩ := named.plain visit.file (by simp [turn.split])
  obtain ⟨-, changed, -⟩ := copied_of_written backs turn.reported written
  obtain ⟨content, stands, located, copyLocated, copied⟩ :=
    find?_backup_of_written there turn.changedAt_found plain isPath backs turn.reported written
  have untilThen := turn.find?_found there named isPath changed apart
  have sinceThen := turn.find?_backup there named isPath changed apart plain.nonempty
  have onward := (changedAt_steps rules options root tree files).locate_iff.mpr copyLocated
  rw [turn.file_eq]
  exact ⟨content, FileTree.readContent_eq_ok_iff.mpr ⟨_, located, untilThen ▸ stands⟩,
    FileTree.readContent_eq_ok_iff.mpr ⟨_, onward, sinceThen.trans copied⟩⟩

/-! ## Patterns that find no copies -/

def SparesCopies (patterns : List Glob.Pattern) : Prop :=
  ∀ pattern ∈ patterns, ∃ c ∈ pattern.ending?, c ≠ 'p'

instance (patterns : List Glob.Pattern) : Decidable (SparesCopies patterns) :=
  decidable_of_iff (patterns.all fun pattern => pattern.ending?.any (· ≠ 'p'))
    (by simp [SparesCopies, Option.any_eq_true])

theorem not_anyMatches_backup {patterns : List Glob.Pattern} (spares : SparesCopies patterns)
    {names : Place} (plain : names.IsPlain) :
    Glob.anyMatches patterns names.backup.path = false := by
  apply Glob.not_anyMatches spares
  · rw [Glob.normalize, Place.toList_path_backup plain.nonempty, List.map_append,
      List.getLast?_append]
    rfl
  · have isLast := List.getLast?_eq_some_getLast plain.nonempty
    rw [Path.fileName?, Path.parts_path plain.backup, List.getLast?_map,
      Place.getLast?_backup, isLast]
    change (String.ofList (_ ++ ".backup".toList)).toList.getLast? = some 'p'
    rw [String.toList_ofList, List.getLast?_append]
    rfl

theorem sparesCopies_default {patterns : List Glob.Pattern}
    (parsed : Glob.parseAll ScannerSettings.defaultInclude = .ok patterns) :
    patterns ≠ [] ∧ SparesCopies patterns := by
  have all : ∀ patterns ∈ (Glob.parseAll ScannerSettings.defaultInclude).toOption,
      patterns ≠ [] ∧ SparesCopies patterns := by
    decide +kernel
  apply all
  rw [parsed]
  rfl

/-! ## Files of a project -/

theorem namedOnce_discover {search : Search} {place : Place}
    (there : tree.HasDirectory search.root place) : NamedOnce (search.discover tree) where
  plain file member := by
    obtain ⟨names, plain, spelled, -⟩ := (Search.mem_discover there).mp member
    exact ⟨names, plain, spelled⟩
  distinct := by
    apply (Search.pairwise_discover there).imp
    rintro first second before rfl
    exact lt_irrefl _ before

theorem file_of_mem_resultOf {scanner : Scanner} {file : String} {usage : Usage}
    (member : usage ∈ (scanner.resultOf tree file).usages) : usage.file = file := by
  rw [Scanner.resultOf, Scanner.analyze] at member
  cases read : scanner.search.document tree file with
  | error error =>
      rw [read] at member
      cases member
  | ok document =>
      rw [read] at member
      rw [file_of_mem_extractUsages member, Scanner.path_of_document scanner tree file read]

theorem file_mem_discover {scanner : Scanner} {usage : Usage}
    (member : usage ∈ (scanner.scan tree).usages) :
    usage.file ∈ scanner.search.discover tree := by
  rw [Scanner.scan, Survey.ofResults] at member
  obtain ⟨entry, listed, isUsage⟩ := List.mem_flatMap.mp member
  obtain ⟨file, found, rfl⟩ := List.mem_map.mp listed
  rw [file_of_mem_resultOf isUsage]
  exact found

theorem mem_discover_of_selected {scanner : Scanner} {file : String}
    (member : file ∈
      (MigrationAnalysis.ofSurvey rules options (scanner.scan tree)).selectedFiles options) :
    file ∈ scanner.search.discover tree := by
  rw [MigrationAnalysis.selectedFiles] at member
  obtain ⟨issue, selected, rfl⟩ := List.mem_map.mp (Order.mem_of_mem_distinctBy member)
  obtain ⟨usage, candidate, listed⟩ := List.mem_flatMap.mp (List.mem_of_mem_filter selected)
  obtain ⟨rule, -, rfl⟩ := List.mem_map.mp listed
  exact file_mem_discover (List.mem_of_mem_filter candidate)

theorem nodup_distinctBy_isSame (files : List String) :
    (Order.distinctBy Path.isSame files).Nodup := by
  have keyed : ∀ first second,
      Path.isSame first second = true ↔ Path.place first = Path.place second :=
    fun _ _ => Path.isSame_iff
  apply (Order.pairwise_distinctBy keyed files).imp
  rintro first second other rfl
  exact other rfl

theorem namedOnce_selectedFiles {scanner : Scanner} {place : Place}
    (there : tree.HasDirectory scanner.search.root place) :
    NamedOnce
      ((MigrationAnalysis.ofSurvey rules options (scanner.scan tree)).selectedFiles options) where
  plain file member := (namedOnce_discover there).plain file (mem_discover_of_selected member)
  distinct := by
    rw [MigrationAnalysis.selectedFiles]
    exact nodup_distinctBy_isSame _

theorem eq_of_search {search : Search} (searched : options.search tree root = .ok search) :
    search.root = root ∧ Glob.parseAll options.scanner.withDefaultPatterns.included =
      .ok search.filter.included := by
  rw [MigrationOptions.search, Search.begin] at searched
  split at searched
  · split at searched
    · rename_i filter compiled
      rw [← Except.ok.inj searched]
      refine ⟨rfl, ?_⟩
      rw [Filter.compile] at compiled
      cases included : Glob.parseAll options.scanner.withDefaultPatterns.included with
      | error error =>
          rw [included] at compiled
          cases compiled
      | ok patterns =>
          rw [included] at compiled
          cases excluded : Glob.parseAll options.scanner.withDefaultPatterns.excluded with
          | error error =>
              rw [excluded] at compiled
              cases compiled
          | ok others =>
              rw [excluded] at compiled
              rw [← Except.ok.inj compiled]
    · cases searched
  · cases searched

/-- Both ways to migrate a project go through files that its search finds. -/
theorem exists_files_of_run {result : FileTree × BatchSummary}
    (there : tree.HasDirectory root directory)
    (ran : migrateProject rules options tree root = .ok result ∨
      migrateBatch rules options tree root = .ok result) :
    ∃ search files analysis, options.search tree root = .ok search ∧
      (∀ file ∈ files, file ∈ search.discover tree) ∧ NamedOnce files ∧
        result = migrateFiles rules options root analysis tree files := by
  cases searched : options.search tree root with
  | error error =>
      rcases ran with ran | ran
      · rw [migrateProject, searched] at ran
        cases ran
      · rw [migrateBatch, MigrationAnalysis.ofProject, searched] at ran
        cases ran
  | ok search =>
      have there' : tree.HasDirectory search.root directory := (eq_of_search searched).1 ▸ there
      rcases ran with ran | ran
      · rw [migrateProject, searched] at ran
        exact ⟨search, _, none, rfl, fun _ member => member, namedOnce_discover there',
          (Except.ok.inj ran).symm⟩
      · rw [migrateBatch, MigrationAnalysis.ofProject, searched] at ran
        exact ⟨search, _, some _, rfl, fun _ member => mem_discover_of_selected member,
          namedOnce_selectedFiles there', (Except.ok.inj ran).symm⟩

/-! ## Projects -/

theorem copiesApart_of_spares {search : Search} {files : List String}
    (there : tree.HasDirectory search.root directory)
    (found : ∀ file ∈ files, file ∈ search.discover tree)
    (nonempty : search.filter.included ≠ []) (spares : SparesCopies search.filter.included)
    (analysis : Option MigrationAnalysis) :
    CopiesApart (migrateFiles rules options root analysis tree files).2.files := by
  have isFound {entry : FileMigration}
      (member : entry ∈ (migrateFiles rules options root analysis tree files).2.files) :
      entry.file ∈ search.discover tree :=
    found _ ((map_file_sublist rules options root tree files).subset
      (List.mem_map_of_mem member))
  intro first isFirst _ second isSecond _ isCopy
  obtain ⟨names, plain, spelled, -⟩ := (Search.mem_discover there).mp (isFound isFirst)
  obtain ⟨others, -, otherSpelled, accepted⟩ :=
    (Search.mem_discover there).mp (isFound isSecond)
  have isAccepted := accepted.isAccepted
  rw [← otherSpelled, isCopy, spelled, ← Place.path_backup plain.nonempty, Filter.accepts,
    not_anyMatches_backup spares plain] at isAccepted
  simp [nonempty] at isAccepted

section Projects

variable {after : FileTree} {summary : BatchSummary} (there : tree.HasDirectory root directory)
  (backs : options.backup = true)
  (ran : migrateProject rules options tree root = .ok (after, summary) ∨
    migrateBatch rules options tree root = .ok (after, summary))

include there backs ran

theorem copiesHoldOriginals_of_apart (apart : CopiesApart summary.files) :
    CopiesHoldOriginals root tree after summary.files := by
  obtain ⟨search, files, analysis, -, -, named, run⟩ := exists_files_of_run there ran
  obtain ⟨isAfter, isSummary⟩ := Prod.mk.inj run
  rw [isSummary] at apart ⊢
  rw [isAfter]
  exact copiesHoldOriginals_migrateFiles there backs named analysis apart

/-- The default patterns find no copies, so that no copy is ever migrated. -/
theorem copiesHoldOriginals_of_default
    (isDefault : options.scanner.included = [] ∨
      options.scanner.included = ScannerSettings.defaultInclude) :
    CopiesHoldOriginals root tree after summary.files := by
  obtain ⟨search, files, analysis, searched, found, named, run⟩ := exists_files_of_run there ran
  have whatIsSearched : options.scanner.withDefaultPatterns.included =
      ScannerSettings.defaultInclude := by
    rcases isDefault with empty | same
    · simp [ScannerSettings.withDefaultPatterns, empty]
    · simp [ScannerSettings.withDefaultPatterns, same]
  obtain ⟨sameRoot, parsed⟩ := eq_of_search searched
  rw [whatIsSearched] at parsed
  obtain ⟨nonempty, spares⟩ := sparesCopies_default parsed
  obtain ⟨-, isSummary⟩ := Prod.mk.inj run
  apply copiesHoldOriginals_of_apart there backs ran
  rw [isSummary]
  exact copiesApart_of_spares (sameRoot ▸ there) found nonempty spares analysis

end Projects

/-! ## A copy that is migrated -/

def declaring (name : String) : Content :=
  .text (s!"import \x7b ArchbaseDataSource \x7d from '@archbase/react';\n" ++
    s!"export const {name} = new ArchbaseDataSource('{name}');\n").toList

/-- A project that was migrated before and restored, but for the copy. -/
def restoredProject : FileTree :=
  .ofFiles "/p" [("src/users.ts", declaring "users"), ("src/users.ts.backup", declaring "people")]

def everyFile : MigrationOptions :=
  { (default : MigrationOptions) with
    scanner := { (default : ScannerSettings) with included := ["**/*"] } }

theorem restoredProject_copyMigrated :
    everyFile.backup = true ∧ everyFile.dryRun = false ∧
      ∃ after summary,
        migrateProject MigrationRule.shipped everyFile restoredProject "/p" =
            .ok (after, summary) ∧
          ¬CopiesHoldOriginals "/p" restoredProject after summary.files := by
  have migrated : ∃ result ∈
      (migrateProject MigrationRule.shipped everyFile restoredProject "/p").toOption,
        ∃ entry ∈ result.2.files, entry.written = true ∧
          restoredProject.readContent (Path.join "/p" entry.file) ≠
            result.1.readContent (backupPath (Path.join "/p" entry.file)) := by
    decide +kernel
  obtain ⟨⟨after, summary⟩, ran, entry, member, written, differs⟩ := migrated
  refine ⟨rfl, rfl, after, summary, ?_, fun holds => ?_⟩
  · cases result : migrateProject MigrationRule.shipped everyFile restoredProject "/p" with
    | error error =>
        rw [result] at ran
        cases ran
    | ok made =>
        rw [result] at ran
        exact congrArg Except.ok (Option.some.inj ran)
  · obtain ⟨content, before, copied⟩ := holds entry member written
    exact differs (before.trans copied.symm)

end Pipeline

end ComponentSurvey
