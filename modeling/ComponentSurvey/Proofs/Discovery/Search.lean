import ComponentSurvey.Discovery.Search
import ComponentSurvey.Proofs.Files.Tree
import ComponentSurvey.Proofs.Order.Sorting
import ComponentSurvey.Proofs.Path.Order

/-!
# What a search finds

A search finds the files below its root that a walk comes to and the filter accepts, in the order of
their paths.  Whether it finds one does not depend on any other file, unless that holds rules.
-/

namespace ComponentSurvey

namespace Search

variable {search : Search} {tree : FileTree} {root : Place}

/-- The file is there, nothing keeps a walk from coming to it, and the filter accepts it. -/
structure Finds (search : Search) (tree : FileTree) (root names : Place) : Prop where
  isFile : ∃ content, tree.find? (root ++ names) = some (.file content)
  isReached : search.respectIgnoreFiles = true →
    Ignore.isReached tree root (root ++ names) = true
  isAccepted : search.filter.accepts names.path = true

theorem mem_discover (there : tree.HasDirectory search.root root) {file : String} :
    file ∈ search.discover tree ↔
      ∃ names : Place, names.IsPlain ∧ file = names.path ∧ search.Finds tree root names := by
  rw [discover, Order.mem_sortBy, List.mem_filter, reachedFiles, there.located]
  simp only [List.mem_map, List.mem_filter, Bool.or_eq_true, Bool.not_eq_true',
    FileTree.mem_filesBelow there.formed]
  constructor
  · rintro ⟨⟨place, ⟨⟨below, content, found⟩, reached⟩, rfl⟩, accepted⟩
    obtain ⟨names, plain, rfl⟩ := there.exists_names below found
    rw [List.drop_left] at accepted ⊢
    exact ⟨names, plain, rfl, ⟨content, found⟩, fun respects => by simpa [respects] using reached,
      accepted⟩
  · rintro ⟨names, plain, rfl, found⟩
    refine ⟨⟨root ++ names, ⟨⟨List.prefix_append _ _, found.isFile⟩, ?_⟩, ?_⟩, found.isAccepted⟩
    · cases respects : search.respectIgnoreFiles with
      | false => exact .inl rfl
      | true => exact .inr (found.isReached respects)
    · rw [List.drop_left]

theorem pairwise_discover (there : tree.HasDirectory search.root root) :
    (search.discover tree).Pairwise fun first second => Path.place first < Path.place second := by
  have keyed : ∀ first second,
      Path.mayPrecede first second = true ↔ Path.place first ≤ Path.place second :=
    fun _ _ => Path.mayPrecede_iff
  refine Order.pairwise_lt_sortBy keyed _ ?_
  rw [reachedFiles, there.located]
  refine List.Pairwise.filter _ (List.pairwise_map.mpr ?_)
  refine ((FileTree.nodup_filesBelow there.formed root).filter _).imp_of_mem ?_
  intro first second firstListed secondListed distinct same
  obtain ⟨below, content, found⟩ :=
    (FileTree.mem_filesBelow there.formed).mp (List.mem_of_mem_filter firstListed)
  obtain ⟨names, plain, rfl⟩ := there.exists_names below found
  obtain ⟨below, content, found⟩ :=
    (FileTree.mem_filesBelow there.formed).mp (List.mem_of_mem_filter secondListed)
  obtain ⟨others, othersPlain, rfl⟩ := there.exists_names below found
  rw [List.drop_left, List.drop_left, ← Path.isSame_iff,
    Path.isSame_path_iff plain othersPlain] at same
  exact distinct (same ▸ rfl)

end Search

namespace Ignore

variable {changed place : Place} {first second : FileTree}

def IsRuleFile (place : Place) : Prop := ∃ directory, ∃ file ∈ ruleFiles, place = directory ++ file

theorem rulesAt_congr (agree : first.AgreeBeyond changed second) (other : place ≠ changed) :
    rulesAt first place = rulesAt second place := by
  have same := agree place other
  rw [rulesAt, rulesAt]
  split
  · rename_i content found
    rw [(same content).mp found]
  · rename_i notFile
    split
    · rename_i content found
      exact absurd ((same content).mpr found) (notFile content)
    · rfl

theorem isIgnored_congr (agree : first.AgreeBeyond changed second)
    (notRules : ¬IsRuleFile changed) (same : first.find? place = second.find? place) :
    isIgnored first place = isIgnored second place := by
  have verdicts : ∀ file ∈ ruleFiles, ∀ isDirectory,
      verdictOf? first place isDirectory file = verdictOf? second place isDirectory file := by
    intro file listed isDirectory
    refine congrArg (List.findSome? · (around place)) (funext fun directory => ?_)
    rw [rulesAt_congr agree]
    rintro rfl
    exact notRules ⟨_, file, listed, rfl⟩
  have isDirectory : decide (first.find? place = some .directory) =
      decide (second.find? place = some .directory) := by
    rw [same]
  refine congrArg (fun verdict : Option Verdict => decide (verdict = some .ignore)) ?_
  rw [isDirectory]
  simp only [ruleFiles, List.forall_mem_cons] at verdicts
  simp only [ruleFiles, List.findSome?_cons, List.findSome?_nil, verdicts]

/-- On the way to a file there are directories only, so the same rules decide. -/
theorem isReached_congr (firstFormed : first.WellFormed) (secondFormed : second.WellFormed)
    (agree : first.AgreeBeyond changed second) (notRules : ¬IsRuleFile changed)
    {content : Content} (inFirst : first.find? place = some (.file content))
    (inSecond : second.find? place = some (.file content)) (directory : Place) :
    isReached first directory place = isReached second directory place := by
  have onTheWay : ∀ count, first.find? (place.take count) = second.find? (place.take count) := by
    intro count
    rcases Nat.lt_or_ge count place.length with before | behind
    · have apart : place.drop count ≠ [] := by simpa using before
      rw [← List.take_append_drop count place] at inFirst inSecond
      rw [FileTree.directory_of_append firstFormed apart inFirst,
        FileTree.directory_of_append secondFormed apart inSecond]
    · rw [List.take_of_length_le behind, inFirst, inSecond]
  simp only [isReached, isIgnored_congr agree notRules (onTheWay _)]

end Ignore

/-- Nobody finds a file because of what is in another one, unless that holds rules. -/
theorem Search.finds_congr {search : Search} {changed root names : Place} {first second : FileTree}
    (firstFormed : first.WellFormed) (secondFormed : second.WellFormed)
    (agree : first.AgreeBeyond changed second) (notRules : ¬Ignore.IsRuleFile changed)
    (other : root ++ names ≠ changed) :
    search.Finds first root names ↔ search.Finds second root names := by
  have same := agree (root ++ names) other
  constructor
  · rintro ⟨⟨content, found⟩, reached, accepted⟩
    have found' := (same content).mp found
    refine ⟨⟨content, found'⟩, fun respects => ?_, accepted⟩
    rw [← Ignore.isReached_congr firstFormed secondFormed agree notRules found found']
    exact reached respects
  · rintro ⟨⟨content, found'⟩, reached, accepted⟩
    have found := (same content).mpr found'
    refine ⟨⟨content, found⟩, fun respects => ?_, accepted⟩
    rw [Ignore.isReached_congr firstFormed secondFormed agree notRules found found']
    exact reached respects

end ComponentSurvey
