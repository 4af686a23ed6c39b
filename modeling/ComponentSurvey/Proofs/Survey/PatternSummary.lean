import ComponentSurvey.Proofs.Order.TextSet
import ComponentSurvey.Survey.Summary
import Mathlib.Data.List.Nodup

/-!
# The summary of project patterns

A pattern is detected, or else recommended because a component suggests it, or else missing.  More
usages can only move it forward, from missing to recommended to detected.
-/

open ComponentSurvey.Order

namespace ComponentSurvey

namespace Library

def patternNames : List String := projectPatterns.map ProjectPattern.name

theorem nodup_patternNames : patternNames.Nodup := by decide

end Library

section Usages

variable {first second : List Usage}

theorem usesComponent_mono (within : first ⊆ second) {name : String}
    (used : usesComponent first name = true) : usesComponent second name = true := by
  unfold usesComponent at used ⊢
  rw [List.any_eq_true] at used ⊢
  obtain ⟨usage, listed, named⟩ := used
  exact ⟨usage, within listed, named⟩

theorem isDetected_mono (within : first ⊆ second) {pattern : Library.ProjectPattern}
    (detected : isDetected first pattern = true) : isDetected second pattern = true := by
  unfold isDetected at detected ⊢
  rw [Bool.or_eq_true, List.all_eq_true, List.any_eq_true] at detected ⊢
  rcases detected with joint | ⟨usage, listed, tagged⟩
  · exact .inl fun component asked => usesComponent_mono within (joint component asked)
  · exact .inr ⟨usage, within listed, tagged⟩

end Usages

namespace PatternSummary

variable {usages first second : List Usage} {name : String}

def Suggested (usages : List Usage) (name : String) : Prop :=
  ∃ entry ∈ suggestedPatterns, usesComponent usages entry.1 = true ∧ entry.2 = name

theorem suggested_listed (suggested : Suggested usages name) : name ∈ Library.patternNames := by
  have tables : ∀ entry ∈ suggestedPatterns, entry.2 ∈ Library.patternNames := by decide
  obtain ⟨entry, listed, -, rfl⟩ := suggested
  exact tables entry listed

theorem mem_detected :
    name ∈ (ofUsages usages).detected ↔
      ∃ pattern ∈ Library.projectPatterns, isDetected usages pattern = true ∧
        pattern.name = name := by
  simp [ofUsages, mem_textSet, and_assoc]

theorem mem_recommended :
    name ∈ (ofUsages usages).recommended ↔
      Suggested usages name ∧ name ∉ (ofUsages usages).detected := by
  simp [ofUsages, mem_textSet, Suggested]

theorem mem_missing :
    name ∈ (ofUsages usages).missing ↔
      name ∈ Library.patternNames ∧ name ∉ (ofUsages usages).detected ∧
        name ∉ (ofUsages usages).recommended := by
  simp [ofUsages, mem_textSet, Library.patternNames]

theorem mem_missing_iff :
    name ∈ (ofUsages usages).missing ↔
      name ∈ Library.patternNames ∧ name ∉ (ofUsages usages).detected ∧
        ¬ Suggested usages name := by
  rw [mem_missing, mem_recommended]
  tauto

theorem nodup_parts (usages : List Usage) :
    ((ofUsages usages).detected ++ (ofUsages usages).missing ++
      (ofUsages usages).recommended).Nodup := by
  have distinct (texts : List String) : (textSet texts).Nodup :=
    (pairwise_textSet texts).imp ne_of_lt
  refine List.nodup_append'.mpr ⟨List.nodup_append'.mpr ⟨distinct _, distinct _, ?_⟩,
    distinct _, ?_⟩
  · intro name detected missing
    exact (mem_missing.mp missing).2.1 detected
  · intro name earlier recommended
    rcases List.mem_append.mp earlier with detected | missing
    · exact (mem_recommended.mp recommended).2 detected
    · exact (mem_missing.mp missing).2.2 recommended

theorem parts_perm (usages : List Usage) :
    ((ofUsages usages).detected ++ (ofUsages usages).missing ++
      (ofUsages usages).recommended).Perm Library.patternNames := by
  rw [List.perm_ext_iff_of_nodup (nodup_parts usages) Library.nodup_patternNames]
  intro name
  simp only [List.mem_append]
  constructor
  · rintro ((detected | missing) | recommended)
    · obtain ⟨pattern, listed, -, rfl⟩ := mem_detected.mp detected
      exact List.mem_map_of_mem listed
    · exact (mem_missing.mp missing).1
    · exact suggested_listed (mem_recommended.mp recommended).1
  · intro listed
    rw [mem_missing]
    tauto

theorem detected_mono (within : first ⊆ second) :
    (ofUsages first).detected ⊆ (ofUsages second).detected := by
  intro name detected
  obtain ⟨pattern, listed, isThere, named⟩ := mem_detected.mp detected
  exact mem_detected.mpr ⟨pattern, listed, isDetected_mono within isThere, named⟩

theorem suggested_mono (within : first ⊆ second) (suggested : Suggested first name) :
    Suggested second name := by
  obtain ⟨entry, listed, used, named⟩ := suggested
  exact ⟨entry, listed, usesComponent_mono within used, named⟩

theorem missing_antitone (within : first ⊆ second) :
    (ofUsages second).missing ⊆ (ofUsages first).missing := by
  intro name missing
  obtain ⟨listed, notDetected, notSuggested⟩ := mem_missing_iff.mp missing
  refine mem_missing_iff.mpr ⟨listed, ?_, ?_⟩
  · exact fun detected => notDetected (detected_mono within detected)
  · exact fun suggested => notSuggested (suggested_mono within suggested)

theorem ofUsages_congr (within : first ⊆ second) (around : second ⊆ first) :
    ofUsages first = ofUsages second := by
  have used : usesComponent first = usesComponent second := by
    funext name
    exact Bool.eq_iff_iff.mpr ⟨usesComponent_mono within, usesComponent_mono around⟩
  have isThere : isDetected first = isDetected second := by
    funext pattern
    exact Bool.eq_iff_iff.mpr ⟨isDetected_mono within, isDetected_mono around⟩
  unfold ofUsages
  rw [used, isThere]

/-- The three lists divide the patterns of the library among them.  What they hold depends on which
usages there are and not on how often or in which order they come, and further usages take nothing
from the detected patterns and add nothing to the missing ones. -/
theorem ofUsages_divides (usages : List Usage) :
    let summary := ofUsages usages
    let parts := summary.detected ++ summary.missing ++ summary.recommended
    parts.Nodup ∧ parts.Perm Library.patternNames ∧
      (∀ others, (∀ usage, usage ∈ others ↔ usage ∈ usages) → ofUsages others = summary) ∧
      ∀ others, usages ⊆ others →
        summary.detected ⊆ (ofUsages others).detected ∧
          (ofUsages others).missing ⊆ summary.missing := by
  refine ⟨nodup_parts usages, parts_perm usages, fun others same => ?_, fun others within => ?_⟩
  · exact ofUsages_congr (fun usage => (same usage).mp) (fun usage => (same usage).mpr)
  · exact ⟨detected_mono within, missing_antitone within⟩

def usageOf (name : String) (patterns : List String) : Usage :=
  { (default : Usage) with name := name, patterns := patterns }

-- the grid alone suggests its pattern, and the data source completes it
theorem ofUsages_divides_grid :
    let grid := usageOf "ArchbaseDataGrid" []
    let source := usageOf "ArchbaseRemoteDataSource" ["async-loading"]
    let summary := ofUsages [grid]
    summary.recommended = ["crud-with-datagrid"] ∧
      ofUsages [grid, grid] = summary ∧
      (ofUsages [source, grid]).detected = ["async-loading", "crud-with-datagrid"] ∧
      summary.detected ⊆ (ofUsages [source, grid]).detected ∧
      (ofUsages [source, grid]).missing ⊆ summary.missing := by
  intro grid source summary
  obtain ⟨-, -, unordered, monotone⟩ := ofUsages_divides [grid]
  have repeated : ∀ usage, usage ∈ [grid, grid] ↔ usage ∈ [grid] := by simp
  have within : [grid] ⊆ [source, grid] := List.subset_cons_self source [grid]
  exact ⟨by decide, unordered [grid, grid] repeated, by decide, monotone [source, grid] within⟩

end PatternSummary

end ComponentSurvey
