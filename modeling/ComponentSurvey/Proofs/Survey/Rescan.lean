import ComponentSurvey.Proofs.Discovery.Search
import ComponentSurvey.Proofs.Facts.Usages
import ComponentSurvey.Proofs.Survey.Replay

/-!
# Analyzing one file again and scanning anew

When one file has changed, analyzing it again comes to what a new scan comes to, unless the file is
one that a walk is kept from: an update does not ask the ignore files.
-/

namespace ComponentSurvey

open Syntax

/-! ## Results and their files -/

theorem path_of_ofComponentFile? {path : String} {source : List Char} {document : Document}
    (parsed : Document.ofComponentFile? path source = some document) : document.path = path := by
  obtain ⟨root, read, placed⟩ := Option.bind_eq_some_iff.mp parsed
  split at placed
  · rw [← Option.some.inj placed]
  · cases placed

namespace Scanner

variable (scanner : Scanner) (tree : FileTree) (file : String)

theorem path_of_document {document : Document}
    (read : scanner.search.document tree file = .ok document) : document.path = file := by
  unfold Search.document at read
  split at read
  · cases read
  · split at read
    · cases read
    · rename_i parsed
      rw [← Except.ok.inj read]
      exact path_of_ofComponentFile? parsed

theorem concerns_resultOf : (scanner.resultOf tree file).Concerns file := by
  unfold resultOf analyze
  cases read : scanner.search.document tree file with
  | error error => cases error <;> exact Path.isSame_iff.mpr rfl
  | ok document =>
      intro usage member
      rw [file_of_mem_extractUsages member, path_of_document scanner tree file read]
      exact Path.isSame_iff.mpr rfl

theorem resultOf_ne_removed : scanner.resultOf tree file ≠ .removed := by
  unfold resultOf
  split <;> exact FileResult.noConfusion

def entryOf : FileEntry := ⟨file, scanner.resultOf tree file, scanner.concerns_resultOf tree file⟩

theorem isRemoval_entryOf : (scanner.entryOf tree file).isRemoval = false :=
  decide_eq_false (scanner.resultOf_ne_removed tree file)

theorem place_entryOf : (scanner.entryOf tree file).place = Path.place file := rfl

def table {scanner : Scanner} {tree : FileTree} {root : Place}
    (there : tree.HasDirectory scanner.search.root root) : FileTable where
  entries := (scanner.search.discover tree).map (scanner.entryOf tree)
  sorted := List.pairwise_map.mpr (Search.pairwise_discover there)
  present := by
    intro entry listed
    obtain ⟨file, -, rfl⟩ := List.mem_map.mp listed
    exact scanner.isRemoval_entryOf tree file

def updateOf : FileEntry :=
  if tree.isFile (scanner.search.pathOf file) && scanner.search.filter.accepts file then
    scanner.entryOf tree file
  else ⟨file, .removed, trivial⟩

variable {scanner tree} {root names : Place}

theorem scan_eq_survey (there : tree.HasDirectory scanner.search.root root) :
    scanner.scan tree =
      (table there).survey scanner.search.root (.ofProject tree scanner.search.root) := by
  rw [scan, FileTable.survey, Survey.ofEntries, table, List.map_map]
  rfl

theorem mem_table (there : tree.HasDirectory scanner.search.root root) {entry : FileEntry} :
    entry ∈ (table there).entries ↔
      ∃ names : Place, names.IsPlain ∧ scanner.search.Finds tree root names ∧
        entry = scanner.entryOf tree names.path := by
  simp only [table, List.mem_map, Search.mem_discover there]
  constructor
  · rintro ⟨_, ⟨names, plain, rfl, found⟩, rfl⟩
    exact ⟨names, plain, found, rfl⟩
  · rintro ⟨names, plain, found, rfl⟩
    exact ⟨_, ⟨names, plain, rfl, found⟩, rfl⟩

theorem file_updateOf : (scanner.updateOf tree file).file = file := by
  rw [updateOf]
  split <;> rfl

theorem mem_remainder_updateOf {entry : FileEntry} :
    entry ∈ (scanner.updateOf tree file).remainder ↔
      tree.isFile (scanner.search.pathOf file) = true ∧
        scanner.search.filter.accepts file = true ∧ entry = scanner.entryOf tree file := by
  rw [updateOf, ← and_assoc, ← Bool.and_eq_true, FileEntry.mem_remainder]
  split
  · rename_i isListed
    simp only [isListed, true_and]
    refine ⟨And.left, ?_⟩
    rintro rfl
    exact ⟨rfl, scanner.isRemoval_entryOf tree file⟩
  · rename_i notListed
    refine ⟨?_, fun listed => absurd listed.1 notListed⟩
    rintro ⟨rfl, stays⟩
    cases stays

theorem rescan_eq (there : tree.HasDirectory scanner.search.root root) (plain : names.IsPlain)
    {path : String}
    (spelled : path = names.path ∨ path = scanner.search.pathOf names.path) (survey : Survey) :
    (scanner.rescan tree survey path).1 =
      survey.replaceFile (scanner.updateOf tree names.path).file
        (scanner.updateOf tree names.path).result := by
  obtain ⟨body, absolute⟩ := FileTree.absolute_of_locate there.formed there.located
  have seen : (Path.relativeTo? scanner.search.root path).getD path = names.path := by
    rcases spelled with rfl | rfl
    · rw [Path.relativeTo?_path absolute plain, Option.getD_none]
    · rw [Search.pathOf, Path.relativeTo?_join absolute plain, Option.getD_some]
  rw [rescan, seen, file_updateOf, updateOf]
  split <;> rfl

end Scanner

/-! ## Listed files -/

def Survey.Lists (survey : Survey) (file : String) : Prop :=
  ∃ listed ∈ survey.scannedFiles ++ survey.failures.map FileFailure.file,
    Path.isSame listed file = true

theorem FileTable.lists_survey_iff (root : String) (dependencies : DependencyReport)
    (table : FileTable) (file : String) :
    (table.survey root dependencies).Lists file ↔
      ∃ entry ∈ table.entries, entry.place = Path.place file := by
  simp only [Survey.Lists, survey, Survey.ofEntries_eq, List.mem_append, List.mem_map,
    List.mem_flatMap, Path.isSame_iff]
  constructor
  · rintro ⟨listed, ⟨entry, member, scanned⟩ | ⟨failure, ⟨entry, member, failed⟩, rfl⟩, same⟩
    · exact ⟨entry, member, (FileEntry.attributed_scanned entry listed scanned).symm.trans same⟩
    · exact ⟨entry, member, (FileEntry.attributed_failures entry failure failed).symm.trans same⟩
  · rintro ⟨entry, member, same⟩
    have stays := table.present entry member
    obtain ⟨name, result, concerns⟩ := entry
    cases result with
    | analyzed usages => exact ⟨name, .inl ⟨_, member, List.mem_singleton_self _⟩, same⟩
    | failed failure =>
        exact ⟨failure.file, .inr ⟨failure, ⟨_, member, List.mem_singleton_self _⟩, rfl⟩,
          (Path.isSame_iff.mp concerns).trans same⟩
    | removed => cases stays

/-! ## One changed file -/

namespace Scanner

variable {scanner : Scanner} {before after : FileTree} {root names : Place}

/-- Nothing but one file is different, and that is neither the manifest nor an ignore file. -/
structure FileChange (scanner : Scanner) (before after : FileTree) (root names : Place) :
    Prop where
  rootBefore : before.HasDirectory scanner.search.root root
  rootAfter : after.HasDirectory scanner.search.root root
  plain : names.IsPlain
  agree : before.AgreeBeyond (root ++ names) after
  notRules : ¬Ignore.IsRuleFile (root ++ names)
  notManifest : names ≠ [Manifest.fileName.toList]

namespace FileChange

theorem of_write (there : before.HasDirectory scanner.search.root root)
    (plain : names.IsPlain) (notRules : ¬Ignore.IsRuleFile (root ++ names))
    (notManifest : names ≠ [Manifest.fileName.toList]) (content : Content) :
    scanner.FileChange before (before.write (scanner.search.pathOf names.path) content).1 root
      names :=
  have ⟨stillThere, agree⟩ := there.write plain content
  ⟨there, stillThere, plain, agree, notRules, notManifest⟩

theorem of_remove? (there : before.HasDirectory scanner.search.root root)
    (plain : names.IsPlain) (notRules : ¬Ignore.IsRuleFile (root ++ names))
    (notManifest : names ≠ [Manifest.fileName.toList])
    (removed : before.remove? (scanner.search.pathOf names.path) = some after) :
    scanner.FileChange before after root names :=
  have ⟨stillThere, agree⟩ := there.remove? plain removed
  ⟨there, stillThere, plain, agree, notRules, notManifest⟩

theorem isFile_congr (change : scanner.FileChange before after root names) {others : Place}
    (plain : others.IsPlain) (other : others ≠ names) :
    before.isFile (scanner.search.pathOf others.path) =
      after.isFile (scanner.search.pathOf others.path) := by
  rw [Bool.eq_iff_iff, Search.pathOf,
    FileTree.isFile_join change.rootBefore.formed change.rootBefore.located plain,
    FileTree.isFile_join change.rootAfter.formed change.rootAfter.located plain]
  exact exists_congr (change.agree _ fun same => other (List.append_cancel_left same))

theorem readText_congr (change : scanner.FileChange before after root names) {others : Place}
    (plain : others.IsPlain) {content : Content}
    (inBefore : before.find? (root ++ others) = some (.file content))
    (inAfter : after.find? (root ++ others) = some (.file content)) :
    before.readText (scanner.search.pathOf others.path) =
      after.readText (scanner.search.pathOf others.path) :=
  (FileTree.readText_join change.rootBefore.formed change.rootBefore.located plain inBefore).trans
    (FileTree.readText_join change.rootAfter.formed change.rootAfter.located plain inAfter).symm

theorem resultOf_congr (change : scanner.FileChange before after root names) {others : Place}
    (plain : others.IsPlain) {content : Content}
    (inBefore : before.find? (root ++ others) = some (.file content))
    (inAfter : after.find? (root ++ others) = some (.file content)) :
    scanner.resultOf before others.path = scanner.resultOf after others.path := by
  unfold resultOf analyze Search.document
  rw [change.readText_congr plain inBefore inAfter]

theorem ofProject_congr (change : scanner.FileChange before after root names) :
    DependencyReport.ofProject before scanner.search.root =
      DependencyReport.ofProject after scanner.search.root := by
  let manifest : Place := [Manifest.fileName.toList]
  have spelled : Manifest.fileName = manifest.path := by decide
  have plain : manifest.IsPlain :=
    ⟨by simp [manifest], by simpa [manifest] using ⟨by decide, by decide⟩⟩
  have other : manifest ≠ names := change.notManifest.symm
  have same := change.isFile_congr plain other
  rw [Search.pathOf, ← spelled] at same
  rw [DependencyReport.ofProject, DependencyReport.ofProject, same]
  split
  · rfl
  · rename_i isFile
    rw [Bool.not_eq_true', Bool.not_eq_false, spelled] at isFile
    obtain ⟨content, found⟩ :=
      (FileTree.isFile_join change.rootAfter.formed change.rootAfter.located plain).mp isFile
    have agree := change.agree _ (fun same => other (List.append_cancel_left same)) content
    have read := change.readText_congr plain (agree.mpr found) found
    rw [Search.pathOf, ← spelled] at read
    rw [read]

theorem finds_congr (change : scanner.FileChange before after root names) {others : Place}
    (other : others ≠ names) :
    scanner.search.Finds before root others ↔ scanner.search.Finds after root others :=
  Search.finds_congr change.rootBefore.formed change.rootAfter.formed change.agree
    change.notRules fun same => other (List.append_cancel_left same)

theorem entryOf_congr (change : scanner.FileChange before after root names) {others : Place}
    (plain : others.IsPlain) (other : others ≠ names)
    (found : ∃ content, after.find? (root ++ others) = some (.file content)) :
    scanner.entryOf before others.path = scanner.entryOf after others.path := by
  obtain ⟨content, inAfter⟩ := found
  have inBefore := (change.agree _ fun same => other (List.append_cancel_left same)) content
  simp only [entryOf, change.resultOf_congr plain (inBefore.mpr inAfter) inAfter]

theorem mem_put (change : scanner.FileChange before after root names) {entry : FileEntry} :
    entry ∈ ((table change.rootBefore).put (scanner.updateOf after names.path)).entries ↔
      entry ∈ (scanner.updateOf after names.path).remainder ∨
        ∃ others : Place, others.IsPlain ∧ others ≠ names ∧
          scanner.search.Finds after root others ∧
          entry = scanner.entryOf after others.path := by
  have place : (scanner.updateOf after names.path).place = Path.place names.path :=
    congrArg Path.place (file_updateOf names.path)
  rw [FileTable.mem_put, mem_table, place]
  refine or_congr_right ⟨?_, ?_⟩
  · rintro ⟨⟨others, plain, found, rfl⟩, apart⟩
    have other : others ≠ names := by
      rintro rfl
      exact apart rfl
    have still := (change.finds_congr other).mp found
    exact ⟨others, plain, other, still, change.entryOf_congr plain other still.isFile⟩
  · rintro ⟨others, plain, other, found, rfl⟩
    refine ⟨⟨others, plain, (change.finds_congr other).mpr found,
      (change.entryOf_congr plain other found.isFile).symm⟩, fun same => other ?_⟩
    exact (Path.isSame_path_iff plain change.plain).mp (Path.isSame_iff.mpr same)

/-- An update goes by the file and the filter, a new scan by what keeps a walk from it as well. -/
theorem put_eq_table (change : scanner.FileChange before after root names)
    (reached : after.isFile (scanner.search.pathOf names.path) = true →
      scanner.search.filter.accepts names.path = true →
      scanner.search.Finds after root names) :
    (table change.rootBefore).put (scanner.updateOf after names.path) =
      table change.rootAfter := by
  apply FileTable.ext_entries
  intro entry
  rw [change.mem_put, mem_table, mem_remainder_updateOf]
  constructor
  · rintro (⟨isFile, accepted, rfl⟩ | ⟨others, plain, -, found, rfl⟩)
    · exact ⟨names, change.plain, reached isFile accepted, rfl⟩
    · exact ⟨others, plain, found, rfl⟩
  · rintro ⟨others, plain, found, rfl⟩
    by_cases same : others = names
    · subst same
      have isFile := FileTree.isFile_join change.rootAfter.formed change.rootAfter.located plain
      exact .inl ⟨isFile.mpr found.isFile, found.isAccepted, rfl⟩
    · exact .inr ⟨others, plain, same, found, rfl⟩

end FileChange

theorem rescan_scan (change : scanner.FileChange before after root names) {path : String}
    (spelled : path = names.path ∨ path = scanner.search.pathOf names.path) :
    (scanner.rescan after (scanner.scan before) path).1 =
      ((table change.rootBefore).put (scanner.updateOf after names.path)).survey
        scanner.search.root (.ofProject after scanner.search.root) := by
  rw [rescan_eq change.rootAfter change.plain spelled, scan_eq_survey change.rootBefore,
    Survey.replaceFile_survey, change.ofProject_congr]

/-- After one file has changed, analyzing it again comes to what a new scan comes to just when no
ignore file keeps a walk from it, if it is there, accepted and ignore files count. -/
theorem rescan_scan_eq_iff (change : scanner.FileChange before after root names) {path : String}
    (spelled : path = names.path ∨ path = scanner.search.pathOf names.path) :
    (scanner.rescan after (scanner.scan before) path).1 = scanner.scan after ↔
      (after.isFile (scanner.search.pathOf names.path) = true →
        scanner.search.filter.accepts names.path = true →
        scanner.search.respectIgnoreFiles = true →
        Ignore.isReached after root (root ++ names) = true) := by
  have isFile := FileTree.isFile_join change.rootAfter.formed change.rootAfter.located change.plain
  rw [rescan_scan change spelled, scan_eq_survey change.rootAfter]
  constructor
  · intro same there accepted
    -- what the update lists, the new scan has found
    have listed : ((table change.rootAfter).survey scanner.search.root
        (.ofProject after scanner.search.root)).Lists names.path := by
      rw [← same, FileTable.lists_survey_iff]
      exact ⟨_, change.mem_put.mpr (.inl ((mem_remainder_updateOf _).mpr
        ⟨there, accepted, rfl⟩)), scanner.place_entryOf after _⟩
    obtain ⟨entry, member, place⟩ := (FileTable.lists_survey_iff _ _ _ _).mp listed
    obtain ⟨others, plain, found, rfl⟩ := (mem_table change.rootAfter).mp member
    rw [place_entryOf, ← Path.isSame_iff, Path.isSame_path_iff plain change.plain] at place
    exact place ▸ found.isReached
  · intro reached
    rw [change.put_eq_table fun there accepted =>
      ⟨isFile.mp there, reached there accepted, accepted⟩]

def ignoring : FileTree := .ofFiles "/project" [(".gitignore", .text "generated/\n".toList)]

def generating : FileTree :=
  ignoring.addFile "generated/Form.tsx" (.text "export const Form = () => null;\n".toList)

-- the file in the ignored directory is listed, and no new scan would list it
theorem generated_listed :
    ((Search.begin generating "/project" default).toOption.map fun search =>
      let scanner : Scanner := ⟨search, Predicate.standard⟩
      ((scanner.rescan generating (scanner.scan ignoring) "generated/Form.tsx").1.scannedFiles,
        (scanner.scan generating).scannedFiles)) =
      some (["generated/Form.tsx"], []) := by
  decide +kernel

end Scanner

end ComponentSurvey
