import ComponentSurvey.Proofs.Files.Tree
import Mathlib.Data.List.Induction

/-!
# Trees that are built

A file or directory that is added brings the directories around it, so that a well-formed tree stays
well-formed as long as no file is in the way.  A tree of files none of which is inside another one
is well-formed.
-/

namespace ComponentSurvey.FileTree

variable {tree : FileTree} {place other : Place} {path : String}

theorem find?_ensureDirectory (tree : FileTree) (place other : Place) :
    (tree.ensureDirectory place).find? other =
      (tree.find? other).or (if other = place then some .directory else none) := by
  rw [ensureDirectory]
  cases stands : tree.find? place with
  | some entry =>
      by_cases same : other = place
      · simp [same, stands]
      · simp [same]
  | none =>
      have below : place ≠ [] := by
        rintro rfl
        cases stands
      by_cases same : other = place
      · simp [same, stands, find?_put tree place _ below]
      · simp [same, find?_put tree other _ below]

theorem WellFormed.ensureDirectory (formed : tree.WellFormed)
    (named : ∀ name ∈ place, Path.IsName name)
    (around : tree.find? place.dropLast = some .directory) :
    (tree.ensureDirectory place).WellFormed := by
  rw [FileTree.ensureDirectory]
  split
  · exact formed
  · rename_i vacant
    rw [Option.not_isSome_iff_eq_none] at vacant
    have plain : place.IsPlain := by
      refine ⟨?_, named⟩
      rintro rfl
      cases vacant
    exact formed.put plain around (by simp [vacant]) _

def IsOpen (tree : FileTree) (place : Place) (count : Nat) : Prop :=
  ∀ step < count, ∀ content, tree.find? (place.take step) ≠ some (.file content)

/-- What was there stays there, and what was not is now a directory if it is on the way. -/
theorem find?_makeSteps (tree : FileTree) (place other : Place) (count : Nat) :
    (tree.makeSteps place count).find? other =
      (tree.find? other).or
        (if ∃ step < count, other = place.take step then some .directory else none) := by
  induction count with
  | zero => simp [makeSteps]
  | succ count ih =>
      rw [makeSteps, find?_ensureDirectory, ih, Option.or_assoc]
      congr 1
      simp only [Nat.exists_lt_succ_right]
      by_cases earlier : ∃ step < count, other = place.take step
      · simp [earlier]
      · simp [earlier]

theorem find?_take_makeSteps {count step : Nat} (isOpen : tree.IsOpen place count)
    (onWay : step < count) :
    (tree.makeSteps place count).find? (place.take step) = some .directory := by
  rw [find?_makeSteps, if_pos ⟨step, onWay, rfl⟩]
  cases stands : tree.find? (place.take step) with
  | none => rfl
  | some entry =>
      cases entry with
      | file content => exact absurd stands (isOpen step onWay content)
      | directory => rfl

theorem WellFormed.makeSteps (formed : tree.WellFormed)
    (named : ∀ name ∈ place.dropLast, Path.IsName name) {count : Nat}
    (isOpen : tree.IsOpen place count) (bound : count ≤ place.length) :
    (tree.makeSteps place count).WellFormed := by
  induction count with
  | zero => exact formed
  | succ count ih =>
      have wayOpen : tree.IsOpen place count := fun step early => isOpen step (by omega)
      rw [FileTree.makeSteps]
      apply (ih wayOpen (by omega)).ensureDirectory
      · intro name listed
        apply named name
        rw [List.dropLast_eq_take]
        exact List.take_subset_take_left place (by omega) listed
      · cases count with
        | zero => rfl
        | succ before =>
            rw [List.dropLast_take (by omega), Nat.add_sub_cancel]
            exact find?_take_makeSteps wayOpen (by omega)

theorem WellFormed.makeWay (formed : tree.WellFormed)
    (named : ∀ name ∈ place.dropLast, Path.IsName name)
    (isOpen : tree.IsOpen place place.length) : (tree.makeWay place).WellFormed :=
  formed.makeSteps named isOpen (Nat.le_refl _)

theorem find?_makeWay_self (tree : FileTree) (place : Place) :
    (tree.makeWay place).find? place = tree.find? place := by
  rw [makeWay, find?_makeSteps, if_neg, Option.or_none]
  rintro ⟨step, onWay, isStep⟩
  have lengths := congrArg List.length isStep
  rw [List.length_take] at lengths
  omega

theorem WellFormed.addDirectory (formed : tree.WellFormed)
    (named : ∀ name ∈ placeBelow path, Path.IsName name)
    (isOpen : tree.IsOpen (placeBelow path) ((placeBelow path).length + 1)) :
    (tree.addDirectory path).WellFormed := by
  apply formed.makeWay
  · rwa [List.dropLast_concat]
  · intro step onWay content
    rw [List.length_append, List.length_singleton] at onWay
    rw [List.take_append_of_le_length (by omega)]
    exact isOpen step onWay content

theorem WellFormed.addFile (formed : tree.WellFormed) (plain : (placeBelow path).IsPlain)
    (noDirectory : tree.find? (placeBelow path) ≠ some .directory)
    (isOpen : tree.IsOpen (placeBelow path) (placeBelow path).length) (content : Content) :
    (tree.addFile path content).WellFormed := by
  have named : ∀ name ∈ (placeBelow path).dropLast, Path.IsName name :=
    fun name listed => plain.named name (List.dropLast_subset _ listed)
  have inside : (placeBelow path).length ≠ 0 := by simpa using plain.nonempty
  apply (formed.makeWay named isOpen).put plain
  · rw [List.dropLast_eq_take]
    exact find?_take_makeSteps isOpen (by omega)
  · rwa [find?_makeWay_self]

theorem wellFormed_empty {top : String} (absolute : ∃ body, top.toList = '/' :: body)
    (unslashed : top.toList.getLast? ≠ some '/') : (empty top).WellFormed where
  absolute := absolute
  unslashed := unslashed
  distinct := .nil
  plain _ member := nomatch member
  closed _ member := nomatch member

structure FitTogether (files : List (String × Content)) : Prop where
  plain : ∀ file ∈ files, (placeBelow file.1).IsPlain
  apart : ∀ first ∈ files, ∀ second ∈ files, placeBelow first.1 <+: placeBelow second.1 →
    placeBelow first.1 = placeBelow second.1

instance (files : List (String × Content)) : Decidable (FitTogether files) :=
  decidable_of_iff ((∀ file ∈ files, (placeBelow file.1).IsPlain) ∧
      ∀ first ∈ files, ∀ second ∈ files, placeBelow first.1 <+: placeBelow second.1 →
        placeBelow first.1 = placeBelow second.1)
    ⟨fun both => ⟨both.1, both.2⟩, fun fit => ⟨fit.plain, fit.apart⟩⟩

theorem FitTogether.of_append {front back : List (String × Content)}
    (fit : FitTogether (front ++ back)) : FitTogether front where
  plain file member := fit.plain file (List.mem_append_left _ member)
  apart first isFirst second isSecond :=
    fit.apart first (List.mem_append_left _ isFirst) second (List.mem_append_left _ isSecond)

theorem ofFiles_concat (top : String) (files : List (String × Content)) (file : String × Content) :
    ofFiles top (files ++ [file]) = (ofFiles top files).addFile file.1 file.2 := by
  rw [ofFiles, List.foldl_concat, ← ofFiles]

def IsAround (files : List (String × Content)) (place : Place) : Prop :=
  place = [] ∨ ∃ file ∈ files, ∃ step < (placeBelow file.1).length,
    place = (placeBelow file.1).take step

theorem IsAround.append {files more : List (String × Content)} (around : IsAround files place) :
    IsAround (files ++ more) place := by
  rcases around with top | ⟨file, member, inside⟩
  · exact .inl top
  · exact .inr ⟨file, List.mem_append_left _ member, inside⟩

/-- Files are where they were put, and all directories are around them. -/
theorem stands_ofFiles {top : String} {files : List (String × Content)} (fit : FitTogether files)
    {entry : Entry} (found : (ofFiles top files).find? place = some entry) :
    (entry = .directory ∧ IsAround files place) ∨
      ∃ file ∈ files, place = placeBelow file.1 ∧ entry = .file file.2 := by
  induction files using List.reverseRecOn with
  | nil =>
      by_cases isTop : place = []
      · subst isTop
        exact .inl ⟨(Option.some.inj found).symm, .inl rfl⟩
      · simp [ofFiles, empty, find?, isTop] at found
  | append_singleton earlier file ih =>
      have inside := (fit.plain file (by simp)).nonempty
      rw [ofFiles_concat, addFile, find?_put _ _ _ inside, makeWay, find?_makeSteps] at found
      split at found
      · rename_i here
        exact .inr ⟨file, by simp, here, (Option.some.inj found).symm⟩
      · cases stood : (ofFiles top earlier).find? place with
        | some old =>
            rw [stood, Option.some_or] at found
            obtain rfl := Option.some.inj found
            rcases ih fit.of_append stood with ⟨isDirectory, around⟩ | ⟨other, member, isOther⟩
            · exact .inl ⟨isDirectory, around.append⟩
            · exact .inr ⟨other, List.mem_append_left _ member, isOther⟩
        | none =>
            rw [stood, Option.none_or, Option.ite_none_right_eq_some] at found
            obtain ⟨⟨step, onWay, isStep⟩, isDirectory⟩ := found
            exact .inl ⟨(Option.some.inj isDirectory).symm,
              .inr ⟨file, by simp, step, onWay, isStep⟩⟩

theorem FitTogether.take_ne {files : List (String × Content)} (fit : FitTogether files)
    {first second : String × Content} (isFirst : first ∈ files) (isSecond : second ∈ files)
    {step : Nat} (onWay : step < (placeBelow second.1).length) :
    (placeBelow second.1).take step ≠ placeBelow first.1 := by
  intro isFile
  have same := fit.apart first isFirst second isSecond (isFile ▸ List.take_prefix _ _)
  have lengths := congrArg List.length (isFile.trans same)
  rw [List.length_take] at lengths
  omega

theorem wellFormed_ofFiles {top : String} (absolute : ∃ body, top.toList = '/' :: body)
    (unslashed : top.toList.getLast? ≠ some '/') {files : List (String × Content)}
    (fit : FitTogether files) : (ofFiles top files).WellFormed := by
  induction files using List.reverseRecOn with
  | nil => exact wellFormed_empty absolute unslashed
  | append_singleton earlier file ih =>
      have plain := fit.plain file (by simp)
      rw [ofFiles_concat]
      apply (ih fit.of_append).addFile plain
      · intro found
        rcases stands_ofFiles fit.of_append found with ⟨-, isTop | around⟩ | ⟨_, -, -, isFile⟩
        · exact plain.nonempty isTop
        · obtain ⟨other, member, step, onWay, isStep⟩ := around
          exact fit.take_ne (by simp) (List.mem_append_left _ member) onWay isStep.symm
        · cases isFile
      · intro step onWay content found
        rcases stands_ofFiles fit.of_append found with ⟨isDirectory, -⟩ | ⟨other, member, isStep, -⟩
        · cases isDirectory
        · exact fit.take_ne (List.mem_append_left _ member) (by simp) onWay isStep

end ComponentSurvey.FileTree
