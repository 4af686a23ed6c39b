import ComponentSurvey.Discovery.Filter
import ComponentSurvey.Proofs.Glob.Parsing
import ComponentSurvey.Proofs.Glob.Segments

/-!
# The default filter

The default patterns look for files by their endings and leave out what is in certain directories.
Whether such a filter accepts a path can be read off the segments of the path.
-/

namespace ComponentSurvey

open Glob

namespace Glob

theorem isPlaced_of_notMem {begins : Bool} {tokens : List Token} (single : .anyParts ∉ tokens) :
    isPlaced begins tokens = true := by
  induction tokens generalizing begins with
  | nil => rfl
  | cons token rest ih =>
      obtain ⟨other, later⟩ := not_or.mp (mt List.mem_cons.mpr single)
      simp [isPlaced_cons, ih later, Ne.symm other]

def endingPattern (ending : String) : Pattern :=
  ⟨.anyParts :: .anySequence :: ending.toList.map .char, true⟩

def directoryPattern (name : String) : Pattern :=
  ⟨.anyParts :: (name.toList.map .char ++ [.char '/', .anyParts]), true⟩

variable {ending name : String} {text : List Char}

theorem isMatch_endingPattern (single : '/' ∉ ending.toList) :
    (endingPattern ending).isMatch text = true ↔
      ∃ name, (segments text).getLast? = some name ∧ ending.toList <:+ name := by
  have placed : isPlaced true (endingPattern ending).tokens = true := by
    simp [endingPattern, isPlaced_cons, isPlaced_of_notMem]
  rw [Pattern.isMatch_iff placed, endingPattern, matches_ending_iff single]

theorem isMatch_directoryPattern (single : '/' ∉ name.toList) :
    (directoryPattern name).isMatch text = true ↔ name.toList ∈ (segments text).dropLast := by
  have split : (directoryPattern name).tokens =
      .anyParts :: (name.toList.map Token.char ++ [.char '/']) ++ [.anyParts] := by
    simp [directoryPattern]
  have placed : isPlaced true (directoryPattern name).tokens = true := by
    rw [split, isPlaced_concat, ← List.cons_append, List.getLast?_concat]
    simp [isPlaced_cons, isPlaced_of_notMem, Token.opensPart]
  rw [Pattern.isMatch_iff placed, directoryPattern, matches_directory_iff single]

theorem anyMatches_of_hasSeparator {patterns : List Pattern} {path : String}
    (separated : ∀ pattern ∈ patterns, pattern.hasSeparator = true) :
    anyMatches patterns path = true ↔
      ∃ pattern ∈ patterns, pattern.isMatch (normalize path) = true := by
  rw [anyMatches, List.any_eq_true]
  refine exists_congr fun pattern => and_congr_right fun listed => ?_
  simp [separated pattern listed]

end Glob

namespace Filter

theorem accepts_iff {endings names : List String} (nonempty : endings ≠ [])
    (endingsSingle : ∀ ending ∈ endings, '/' ∉ ending.toList)
    (namesSingle : ∀ name ∈ names, '/' ∉ name.toList) (path : String) :
    accepts ⟨endings.map endingPattern, names.map directoryPattern, true⟩ path = true ↔
      (∃ last, (segments (normalize path)).getLast? = some last ∧
        ∃ ending ∈ endings, ending.toList <:+ last) ∧
      ∀ name ∈ names, name.toList ∉ (segments (normalize path)).dropLast := by
  have included : anyMatches (endings.map endingPattern) path = true ↔
      ∃ last, (segments (normalize path)).getLast? = some last ∧
        ∃ ending ∈ endings, ending.toList <:+ last := by
    rw [anyMatches_of_hasSeparator (List.forall_mem_map.mpr fun _ _ => rfl)]
    constructor
    · rintro ⟨pattern, listed, found⟩
      obtain ⟨ending, member, rfl⟩ := List.mem_map.mp listed
      obtain ⟨last, isLast, ends⟩ := (isMatch_endingPattern (endingsSingle ending member)).mp found
      exact ⟨last, isLast, ending, member, ends⟩
    · rintro ⟨last, isLast, ending, member, ends⟩
      exact ⟨_, List.mem_map_of_mem member,
        (isMatch_endingPattern (endingsSingle ending member)).mpr ⟨last, isLast, ends⟩⟩
  have excluded : anyMatches (names.map directoryPattern) path = true ↔
      ∃ name ∈ names, name.toList ∈ (segments (normalize path)).dropLast := by
    rw [anyMatches_of_hasSeparator (List.forall_mem_map.mpr fun _ _ => rfl)]
    simp only [List.mem_map, exists_exists_and_eq_and]
    exact exists_congr fun name => and_congr_right fun member =>
      isMatch_directoryPattern (namesSingle name member)
  have isEmpty : (endings.map endingPattern).isEmpty = false := by simpa using nonempty
  rw [accepts, isEmpty, Bool.true_or, Bool.true_and, Bool.false_or, Bool.and_eq_true, included,
    Bool.not_eq_true', ← Bool.not_eq_true, excluded]
  simp

def sourceEndings : List String := [".tsx", ".ts", ".jsx", ".js"]

def skippedDirectories : List String := ["node_modules", "dist", "build", ".git", "coverage"]

theorem compile_default :
    compile ScannerSettings.defaultInclude ScannerSettings.defaultExclude true =
      .ok ⟨sourceEndings.map endingPattern, skippedDirectories.map directoryPattern, true⟩ := by
  decide +kernel

/-- The default filter, in all directories, accepts the paths whose last segment ends like a source
file and none of whose earlier segments is a directory that is skipped. -/
theorem accepts_default :
    ∃ filter,
      compile ScannerSettings.defaultInclude ScannerSettings.defaultExclude true = .ok filter ∧
        ∀ path, filter.accepts path = true ↔
          (∃ last, (segments (normalize path)).getLast? = some last ∧
            ∃ ending ∈ sourceEndings, ending.toList <:+ last) ∧
          ∀ name ∈ skippedDirectories, name.toList ∉ (segments (normalize path)).dropLast :=
  ⟨_, compile_default, accepts_iff (by decide) (by decide +kernel) (by decide +kernel)⟩

end Filter

end ComponentSurvey
