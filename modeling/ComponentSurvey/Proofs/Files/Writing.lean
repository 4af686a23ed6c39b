import ComponentSurvey.Migration.Batch
import ComponentSurvey.Proofs.Files.Tree

/-!
# What writing changes

Writing a file changes what stands in one place and leaves all directories.  So paths go on leading
to the same places, and what is saved in a run can be told by the tree that the run began with.
-/

namespace ComponentSurvey.FileTree

structure ChangedAt (changed : Place → Prop) (before after : FileTree) : Prop where
  top : after.top = before.top
  directories : ∀ place,
    after.find? place = some .directory ↔ before.find? place = some .directory
  elsewhere : ∀ place, ¬changed place → after.find? place = before.find? place

variable {before middle after : FileTree} {changed : Place → Prop} {path : String} {place : Place}

namespace ChangedAt

theorem refl (changed : Place → Prop) (tree : FileTree) : ChangedAt changed tree tree :=
  ⟨rfl, fun _ => Iff.rfl, fun _ _ => rfl⟩

theorem trans (first : ChangedAt changed before middle)
    (second : ChangedAt changed middle after) : ChangedAt changed before after where
  top := second.top.trans first.top
  directories place := (second.directories place).trans (first.directories place)
  elsewhere place outside :=
    (second.elsewhere place outside).trans (first.elsewhere place outside)

theorem mono {more : Place → Prop} (change : ChangedAt changed before after)
    (within : ∀ place, changed place → more place) : ChangedAt more before after where
  top := change.top
  directories := change.directories
  elsewhere place outside :=
    change.elsewhere place fun inside => outside (within place inside)

theorem locate_iff (change : ChangedAt changed before after) :
    after.locate path = .ok place ↔ before.locate path = .ok place := by
  constructor
  · intro located
    apply locate_of_kept _ change.top.symm located
    intro directory stands
    exact (change.directories directory).mp stands
  · intro located
    apply locate_of_kept _ change.top located
    intro directory stands
    exact (change.directories directory).mpr stands

end ChangedAt

theorem changedAt_put (located : before.locate path = .ok place)
    (noDirectory : before.find? place ≠ some .directory) (content : Content) :
    ChangedAt (fun place => before.locate path = .ok place) before
      (before.pastFault.put place (.file content)) := by
  have below : place ≠ [] := by
    rintro rfl
    exact noDirectory rfl
  refine ⟨rfl, fun other => ?_, fun other outside => ?_⟩
  · rw [find?_put before.pastFault other _ below, find?_pastFault]
    split
    · rename_i here
      simp [here, noDirectory]
    · exact Iff.rfl
  · rw [find?_put before.pastFault other _ below, if_neg, find?_pastFault]
    rintro rfl
    exact outside located

/-- Whatever a write comes to, it changes nothing but the file it is about. -/
theorem changedAt_write (tree : FileTree) (path : String) (content : Content) :
    ChangedAt (fun place => tree.locate path = .ok place) tree (tree.write path content).1 := by
  have way := tree.written path content
  generalize tree.write path content = result at way ⊢
  obtain ⟨after, outcome⟩ := result
  cases way with
  | refused error noTarget => exact .refl _ _
  | done place found sound =>
      obtain ⟨located, noDirectory⟩ := target_eq_ok found
      exact changedAt_put located noDirectory content
  | untouched place found error fails => exact ⟨rfl, fun _ => Iff.rfl, fun _ _ => rfl⟩
  | cut place found error left fails =>
      obtain ⟨located, noDirectory⟩ := target_eq_ok found
      exact changedAt_put located noDirectory left

theorem readContent_eq_ok_iff {tree : FileTree} {content : Content} :
    tree.readContent path = .ok content ↔
      ∃ place, tree.locate path = .ok place ∧ tree.find? place = some (.file content) := by
  rw [readContent, lookup]
  cases located : tree.locate path with
  | error error =>
      constructor
      · intro read
        cases read
      · rintro ⟨_, ⟨⟩, -⟩
  | ok place =>
      dsimp only [bind, Except.bind]
      constructor
      · intro read
        refine ⟨place, rfl, ?_⟩
        split at read
        · cases read
        · rename_i entry looked
          split at looked
          · rename_i found stands
            rw [stands, Except.ok.inj looked]
            split at read
            · rw [Except.ok.inj read]
            · cases read
          · cases looked
      · rintro ⟨_, ⟨⟩, stands⟩
        rw [stands]
        rfl

theorem changedAt_copy (tree : FileTree) (source target : String) :
    ChangedAt (fun place => tree.locate target = .ok place) tree (tree.copy source target).1 := by
  rw [copy]
  cases tree.readContent source with
  | error error => exact .refl _ _
  | ok content => exact changedAt_write tree target content

theorem write_of_copy {target : String} (copied : before.copy path target = (after, none)) :
    ∃ content, before.readContent path = .ok content ∧
      before.write target content = (after, none) := by
  rw [copy] at copied
  cases read : before.readContent path with
  | error error =>
      rw [read] at copied
      cases copied
  | ok content =>
      rw [read] at copied
      exact ⟨content, rfl, copied⟩

def IsSavedAt (tree : FileTree) (path : String) (place : Place) : Prop :=
  tree.locate path = .ok place ∨ tree.locate (backupPath path) = .ok place

theorem fst_replace (tree : FileTree) (path : String) (code : List Char) :
    (tree.replace path code).1 = (tree.write path (.text code)).1 := by
  rw [replace]
  split <;> rename_i same <;> rw [same]

theorem changedAt_replace (tree : FileTree) (path : String) (code : List Char) :
    ChangedAt (fun place => tree.locate path = .ok place) tree (tree.replace path code).1 := by
  rw [fst_replace]
  exact changedAt_write tree path (.text code)

theorem changedAt_save (tree : FileTree) (path : String) (code : List Char) (backup : Bool) :
    ChangedAt (tree.IsSavedAt path) tree (tree.save path (some code) backup).1 := by
  cases backup with
  | false => exact (changedAt_replace tree path code).mono fun place located => .inl located
  | true =>
      have first := changedAt_copy tree path (backupPath path)
      rw [save]
      simp only [if_true]
      split
      · rename_i copied isCopy
        rw [isCopy] at first
        have second := changedAt_replace copied path code
        refine (first.mono fun place located => .inr located).trans
          (second.mono fun place located => .inl ?_)
        exact first.locate_iff.mp located
      · rename_i failed
        rw [failed] at first
        exact first.mono fun place located => .inr located

theorem WellFormed.save {tree : FileTree} (formed : tree.WellFormed) (path : String)
    (code : List Char) (backup : Bool) :
    (tree.save path (some code) backup).1.WellFormed := by
  have replaced {tree : FileTree} (formed : tree.WellFormed) :
      (tree.replace path code).1.WellFormed := by
    rw [fst_replace]
    exact formed.write path (.text code)
  cases backup with
  | false => exact replaced formed
  | true =>
      have first : (tree.copy path (backupPath path)).1.WellFormed := by
        rw [copy]
        cases tree.readContent path with
        | error error => exact formed
        | ok content => exact formed.write (backupPath path) content
      rw [FileTree.save]
      simp only [if_true]
      split
      · rename_i copied isCopy
        rw [isCopy] at first
        exact replaced first
      · rename_i failed
        rwa [failed] at first

theorem replace_written_or_failed (tree : FileTree) (path : String) (code : List Char) :
    (tree.replace path code).2 = .written ∨
      ∃ error, (tree.replace path code).2 = .failed error ∧ error.path = path := by
  rw [replace]
  split
  · exact .inl rfl
  · exact .inr ⟨_, rfl, rfl⟩

theorem save_written_or_failed (tree : FileTree) (path : String) (code : List Char)
    (backup : Bool) :
    (tree.save path (some code) backup).2 = .written ∨
      ∃ error, (tree.save path (some code) backup).2 = .failed error ∧
        (error.path = path ∨ error.path = backupPath path) := by
  have replaced (tree : FileTree) : (tree.replace path code).2 = .written ∨
      ∃ error, (tree.replace path code).2 = .failed error ∧
        (error.path = path ∨ error.path = backupPath path) := by
    rcases tree.replace_written_or_failed path code with written | ⟨error, failed, named⟩
    · exact .inl written
    · exact .inr ⟨error, failed, .inl named⟩
  cases backup with
  | false => exact replaced tree
  | true =>
      rw [save]
      simp only [if_true]
      split
      · exact replaced _
      · exact .inr ⟨_, rfl, .inr rfl⟩

theorem write_of_replace {tree : FileTree} {code : List Char}
    (written : (tree.replace path code).2 = .written) :
    tree.write path (.text code) = ((tree.replace path code).1, none) := by
  rw [replace] at written ⊢
  split at written
  · assumption
  · cases written

theorem copied_of_save {tree : FileTree} {code : List Char}
    (written : (tree.save path (some code) true).2 = .written) :
    ∃ content middle, tree.readContent path = .ok content ∧
      tree.write (backupPath path) content = (middle, none) ∧
        middle.write path (.text code) = ((tree.save path (some code) true).1, none) := by
  rw [save] at written ⊢
  simp only [if_true] at written ⊢
  split at written
  · rename_i middle copied
    obtain ⟨content, read, wrote⟩ := write_of_copy copied
    exact ⟨content, middle, read, wrote, write_of_replace written⟩
  · cases written

theorem readContent_of_write {content : Content}
    (wrote : before.write path content = (after, none)) :
    after.readContent path = .ok content := by
  have change := changedAt_write before path content
  rw [wrote] at change
  obtain ⟨place, located, noDirectory, rfl⟩ := put_of_write wrote
  have below : place ≠ [] := by
    rintro rfl
    exact noDirectory rfl
  refine readContent_eq_ok_iff.mpr ⟨place, change.locate_iff.mpr located, ?_⟩
  rw [find?_put _ _ _ below, if_pos rfl]

/-- What is reported as written is there to be read. -/
theorem readText_of_save {tree : FileTree} {code : List Char} {backup : Bool}
    (written : (tree.save path (some code) backup).2 = .written) :
    (tree.save path (some code) backup).1.readText path = .ok code := by
  have read : (tree.save path (some code) backup).1.readContent path = .ok (.text code) := by
    cases backup with
    | false => exact readContent_of_write (write_of_replace written)
    | true =>
        obtain ⟨content, middle, -, -, wrote⟩ := copied_of_save written
        exact readContent_of_write wrote
  rw [readText, read]
  rfl

end ComponentSurvey.FileTree
