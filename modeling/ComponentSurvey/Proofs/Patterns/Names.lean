import ComponentSurvey.Proofs.Patterns.Recommendation
import Mathlib.Data.List.Basic

/-!
# Names of patterns

The name of a pattern is written from what the members of its group have in common, with hyphens in
between.  A layout may hold hyphens itself, but what stands before it and behind it does not, so
different groups have different names.
-/

open ComponentSurvey.Order

namespace ComponentSurvey

theorem split_at_first_hyphen {first second rest others : List Char} (plain : '-' ∉ first)
    (alsoPlain : '-' ∉ second) (same : first ++ '-' :: rest = second ++ '-' :: others) :
    first = second ∧ rest = others := by
  rcases List.append_eq_append_iff.mp same with ⟨between, rfl, rest⟩ | ⟨between, rfl, rest⟩
  · cases between with
    | nil => simpa using rest
    | cons c _ => simp_all
  · cases between with
    | nil => simpa [eq_comm] using rest
    | cons c _ => simp_all

theorem split_at_last_hyphen {front others first second : List Char} (plain : '-' ∉ first)
    (alsoPlain : '-' ∉ second) (same : front ++ '-' :: first = others ++ '-' :: second) :
    front = others ∧ first = second := by
  have reversed : first.reverse ++ '-' :: front.reverse =
      second.reverse ++ '-' :: others.reverse := by
    simpa using congrArg List.reverse same
  obtain ⟨last, earlier⟩ := split_at_first_hyphen (by simpa using plain) (by simpa using alsoPlain)
    reversed
  exact ⟨List.reverse_inj.mp earlier, List.reverse_inj.mp last⟩

theorem Validation.hyphen_not_mem_label (validation : Validation) :
    '-' ∉ validation.label.toList := by
  cases validation <;> decide

theorem Complexity.hyphen_not_mem_label (complexity : Complexity) :
    '-' ∉ complexity.label.toList := by
  cases complexity <;> decide

theorem Generation.hyphen_not_mem_label (generation : Generation) :
    '-' ∉ generation.label.toList := by
  cases generation <;> decide

theorem Validation.label_injective : Function.Injective Validation.label := by
  intro first second same
  cases first <;> cases second <;> simp_all [Validation.label]

theorem Complexity.label_injective : Function.Injective Complexity.label := by
  intro first second same
  cases first <;> cases second <;> simp_all [Complexity.label]

theorem Generation.label_injective : Function.Injective Generation.label := by
  intro first second same
  cases first <;> cases second <;> simp_all [Generation.label]

namespace DetectedPattern

def formName (shape : FormShape) : String :=
  s!"form-{shape.validation.label}-{shape.layout}-{shape.complexity.label}"

def bindingName (bound : String × Generation) : String :=
  s!"datasource-{bound.2.label}-{bound.1}"

def pageName (layout : String) : String := s!"page-{layout}"

theorem toList_formName (shape : FormShape) :
    (formName shape).toList = "form-".toList ++ (shape.validation.label.toList ++
      '-' :: (shape.layout.toList ++ '-' :: shape.complexity.label.toList)) := by
  simp [formName, ToString.toString]

theorem toList_bindingName (bound : String × Generation) :
    (bindingName bound).toList =
      "datasource-".toList ++ (bound.2.label.toList ++ '-' :: bound.1.toList) := by
  simp [bindingName, ToString.toString]

theorem toList_pageName (layout : String) :
    (pageName layout).toList = "page-".toList ++ layout.toList := by
  simp [pageName, ToString.toString]

theorem formName_injective : Function.Injective formName := by
  intro first second same
  have texts := congrArg String.toList same
  rw [toList_formName, toList_formName] at texts
  obtain ⟨validation, behind⟩ := split_at_first_hyphen first.validation.hyphen_not_mem_label
    second.validation.hyphen_not_mem_label (List.append_cancel_left texts)
  obtain ⟨layout, complexity⟩ := split_at_last_hyphen first.complexity.hyphen_not_mem_label
    second.complexity.hyphen_not_mem_label behind
  rw [String.toList_inj] at validation layout complexity
  cases first
  cases second
  simp only [FormShape.mk.injEq]
  exact ⟨Validation.label_injective validation, layout, Complexity.label_injective complexity⟩

theorem bindingName_injective : Function.Injective bindingName := by
  intro first second same
  have texts := congrArg String.toList same
  rw [toList_bindingName, toList_bindingName] at texts
  obtain ⟨generation, component⟩ := split_at_first_hyphen first.2.hyphen_not_mem_label
    second.2.hyphen_not_mem_label (List.append_cancel_left texts)
  rw [String.toList_inj] at generation component
  exact Prod.ext component (Generation.label_injective generation)

theorem pageName_injective : Function.Injective pageName := by
  intro first second same
  have texts := congrArg String.toList same
  rw [toList_pageName, toList_pageName] at texts
  exact String.toList_inj.mp (List.append_cancel_left texts)

theorem formName_ne_bindingName (shape : FormShape) (bound : String × Generation) :
    formName shape ≠ bindingName bound := by
  intro same
  have texts := congrArg String.toList same
  simp [toList_formName, toList_bindingName] at texts

theorem formName_ne_pageName (shape : FormShape) (layout : String) :
    formName shape ≠ pageName layout := by
  intro same
  have texts := congrArg String.toList same
  simp [toList_formName, toList_pageName] at texts

theorem bindingName_ne_pageName (bound : String × Generation) (layout : String) :
    bindingName bound ≠ pageName layout := by
  intro same
  have texts := congrArg String.toList same
  simp [toList_bindingName, toList_pageName] at texts

def outline (pattern : DetectedPattern) : PatternKind × String × Nat :=
  (pattern.kind, pattern.name, pattern.count)

def formOutline (entry : FormShape × Nat) : PatternKind × String × Nat :=
  (.form, formName entry.1, entry.2)

def bindingOutline (entry : (String × Generation) × Nat) : PatternKind × String × Nat :=
  (.component, bindingName entry.1, entry.2)

def pageOutline (entry : String × Nat) : PatternKind × String × Nat :=
  (.page, pageName entry.1, entry.2)

theorem map_outline_groups {α κ γ : Type} [DecidableEq κ] (parts : FileObservation → List α)
    (key : α → κ) (build : κ → List (String × α) → γ) (count : γ → Nat)
    (pattern : γ → DetectedPattern) (outlineOf : κ × Nat → PatternKind × String × Nat)
    (counts : ∀ shared members, count (build shared members) = members.length)
    (outlines : ∀ shared members,
      (pattern (build shared members)).outline = outlineOf (shared, members.length))
    (minimum : Nat) (observations : List FileObservation) :
    (((((membersBy (fun member => key member.2) (contributions parts observations)).map
          fun group => build group.1 group.2).filter fun group => minimum ≤ count group).map
        pattern).map outline) =
      (frequent minimum (observations.flatMap fun observation =>
        (parts observation).map key)).map outlineOf := by
  rw [← map_key_contributions, ← filter_membersBy]
  simp only [List.filter_map, List.map_map, Function.comp_def, counts, outlines]

end DetectedPattern

namespace Findings

open DetectedPattern

variable (observations : List FileObservation) (failures : List FileFailure)

theorem map_outline_patterns :
    (ofObservations observations failures).patterns.map outline =
      (frequent 2 (observations.flatMap FileObservation.shapes)).map formOutline ++
        (frequent 3 (observations.flatMap FileObservation.bindings)).map bindingOutline ++
        (frequent 2 (observations.flatMap FileObservation.layouts)).map pageOutline := by
  rw [ofObservations, Tally.ofObservations_eq, List.map_append, List.map_append]
  have forms := map_outline_groups FileObservation.forms FormOccurrence.shape
    FormCollection.ofMembers (fun collection => collection.group.count) ofForms formOutline
    (fun _ _ => rfl) (fun _ _ => rfl) 2 observations
  have bindings := map_outline_groups FileObservation.boundUsages
    (fun usage => (usage.name, usage.generation)) DataSourceGroup.ofMembers
    DataSourceGroup.count ofDataSource bindingOutline (fun _ _ => rfl) (fun _ _ => rfl) 3
    observations
  have pages := map_outline_groups (fun observation => observation.page.toList)
    PageObservation.layout PageGroup.ofMembers PageGroup.count ofPage pageOutline
    (fun _ _ => rfl) (fun _ _ => rfl) 2 observations
  exact congrArg₂ _ (congrArg₂ _ forms bindings) pages

theorem nodup_names_patterns :
    ((ofObservations observations failures).patterns.map DetectedPattern.name).Nodup := by
  have names := congrArg (List.map fun outline => outline.2.1)
    (map_outline_patterns observations failures)
  simp only [List.map_append, List.map_map, Function.comp_def, outline, formOutline,
    bindingOutline, pageOutline] at names
  have distinct {κ : Type} [DecidableEq κ] {name : κ → String} (minimum : Nat) (keys : List κ)
      (injective : Function.Injective name) :
      ((frequent minimum keys).map fun entry => name entry.1).Nodup := by
    simpa [Function.comp_def] using (nodup_frequent minimum keys).map injective
  rw [names, List.nodup_append', List.nodup_append']
  refine ⟨⟨distinct 2 _ formName_injective, distinct 3 _ bindingName_injective, ?_⟩,
    distinct 2 _ pageName_injective, ?_⟩
  · simp only [List.disjoint_left, List.mem_map]
    rintro _ ⟨form, _, rfl⟩ ⟨bound, _, same⟩
    exact formName_ne_bindingName form.1 bound.1 same.symm
  · simp only [List.disjoint_left, List.mem_append, List.mem_map]
    rintro _ (⟨form, _, rfl⟩ | ⟨bound, _, rfl⟩) ⟨page, _, same⟩
    · exact formName_ne_pageName form.1 page.1 same.symm
    · exact bindingName_ne_pageName bound.1 page.1 same.symm

/-- Every group that is large enough is one pattern with a name of its own, and the groups are what
the observations have in common. -/
theorem patterns_ofObservations :
    let findings := ofObservations observations failures
    (findings.patterns.map DetectedPattern.name).Nodup ∧
      findings.patterns.map outline =
        ((findings.forms.filter fun group => 2 ≤ group.count).map fun group =>
            formOutline (group.shape, group.count)) ++
          ((findings.dataSources.filter fun group => 3 ≤ group.count).map fun group =>
            bindingOutline ((group.component, group.generation), group.count)) ++
          ((findings.pages.filter fun group => 2 ≤ group.count).map fun group =>
            pageOutline (group.layout, group.count)) ∧
      findings.patterns.map outline =
        (frequent 2 (observations.flatMap FileObservation.shapes)).map formOutline ++
          (frequent 3 (observations.flatMap FileObservation.bindings)).map bindingOutline ++
          (frequent 2 (observations.flatMap FileObservation.layouts)).map pageOutline := by
  refine ⟨nodup_names_patterns observations failures, ?_,
    map_outline_patterns observations failures⟩
  simp only [ofObservations, List.map_append, List.map_map, List.filter_map]
  rfl

end Findings

end ComponentSurvey
