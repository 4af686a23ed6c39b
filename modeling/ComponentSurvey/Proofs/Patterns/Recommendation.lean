import ComponentSurvey.Patterns.Recommendation
import ComponentSurvey.Proofs.Patterns.Grouping

/-!
# What the recommendations depend on

The rules read groups, and the groups come in the order in which their members are met.  Still a
rule only asks how many members some groups have between them, or how many groups are large, so the
recommendations follow from sums over the files, in whatever order the files are gone through.
-/

open ComponentSurvey.Order

namespace ComponentSurvey

/-! ## Sums over the files -/

def boundCount (observations : List FileObservation) (generation : Generation) : Nat :=
  total (fun observation =>
    observation.boundUsages.countP fun usage => usage.generation = generation) observations

def unvalidatedCount (observations : List FileObservation) : Nat :=
  total (fun observation =>
    observation.forms.countP fun form => form.validation = .absent) observations

def schemaCount (observations : List FileObservation) (library : Validation) : Nat :=
  total (fun observation =>
    observation.writtenSchemas.countP fun schema => schema.1 = library) observations

namespace FileObservation

def shapes (observation : FileObservation) : List FormShape :=
  observation.forms.map FormOccurrence.shape

def bindings (observation : FileObservation) : List (String × Generation) :=
  observation.boundUsages.map fun usage => (usage.name, usage.generation)

def layouts (observation : FileObservation) : List String :=
  observation.page.toList.map PageObservation.layout

end FileObservation

/-- The groups of forms, of bound usages and of pages with five members or more. -/
def frequentGroups (observations : List FileObservation) : Nat :=
  frequentKeys 5 (observations.flatMap FileObservation.shapes) +
    frequentKeys 5 (observations.flatMap FileObservation.bindings) +
    frequentKeys 5 (observations.flatMap FileObservation.layouts)

/-- Whether two lists of observations have the same sums. -/
structure SameSums (first second : List FileObservation) : Prop where
  bound : boundCount first = boundCount second
  unvalidated : unvalidatedCount first = unvalidatedCount second
  schemas : schemaCount first = schemaCount second
  frequent : frequentGroups first = frequentGroups second

theorem SameSums.of_perm {first second : List FileObservation} (permuted : first.Perm second) :
    SameSums first second where
  bound := funext fun _ => total_perm _ permuted
  unvalidated := total_perm _ permuted
  schemas := funext fun _ => total_perm _ permuted
  frequent := by
    have shapes := frequentKeys_perm 5 (permuted.flatMap_right FileObservation.shapes)
    have bindings := frequentKeys_perm 5 (permuted.flatMap_right FileObservation.bindings)
    have layouts := frequentKeys_perm 5 (permuted.flatMap_right FileObservation.layouts)
    rw [frequentGroups, shapes, bindings, layouts, frequentGroups]

/-! ## What the rules read -/

theorem any_eq_pos_total {β : Type} (parts : FileObservation → List β) (test : β → Bool)
    (observations : List FileObservation) :
    (observations.any fun observation => (parts observation).any test) =
      decide (0 < total (fun observation => (parts observation).countP test) observations) := by
  rw [total_countP, ← List.any_flatMap, Bool.eq_iff_iff, decide_eq_true_eq, List.countP_pos_iff,
    List.any_eq_true]

/-- Patterns of high priority are the large groups, whatever makes a group a pattern. -/
theorem countP_high {γ : Type} {pattern : γ → DetectedPattern} {count : γ → Nat} {minimum : Nat}
    (rated : ∀ group, (pattern group).priority = .ofFrequency (count group))
    (lenient : minimum ≤ 5) (groups : List γ) :
    ((groups.filter fun group => minimum ≤ count group).map pattern).countP
        (fun pattern => pattern.priority = .high) =
      groups.countP fun group => 5 ≤ count group := by
  have high (group : γ) : (pattern group).priority = .high ↔ 5 ≤ count group := by
    rw [rated, Priority.ofFrequency]
    split <;> simp [*]
  rw [List.countP_map, List.countP_filter]
  refine List.countP_congr fun group _ => ?_
  simp only [Function.comp_apply, Bool.and_eq_true, decide_eq_true_eq, high]
  omega

theorem countP_groups {α κ γ : Type} [DecidableEq κ] (parts : FileObservation → List α)
    (key : α → κ) (build : κ → List (String × α) → γ) (count : γ → Nat)
    (counts : ∀ shared members, count (build shared members) = members.length)
    (observations : List FileObservation) :
    ((membersBy (fun member => key member.2) (contributions parts observations)).map
        fun group => build group.1 group.2).countP (fun group => 5 ≤ count group) =
      frequentKeys 5 (observations.flatMap fun observation => (parts observation).map key) := by
  rw [List.countP_map, ← map_key_contributions, ← countP_membersBy]
  simp only [Function.comp_def, counts]

namespace Findings

variable (observations : List FileObservation) (failures : List FileFailure)

theorem frequentPatterns_ofObservations :
    RecommendationRule.frequentPatterns (ofObservations observations failures) =
      frequentGroups observations := by
  have forms := countP_groups FileObservation.forms FormOccurrence.shape
    FormCollection.ofMembers (fun collection => collection.group.count) (fun _ _ => rfl)
    observations
  have bindings := countP_groups FileObservation.boundUsages
    (fun usage => (usage.name, usage.generation)) DataSourceGroup.ofMembers
    DataSourceGroup.count (fun _ _ => rfl) observations
  have pages := countP_groups (fun observation => observation.page.toList)
    PageObservation.layout PageGroup.ofMembers PageGroup.count (fun _ _ => rfl) observations
  simp only [RecommendationRule.frequentPatterns, ofObservations, List.countP_append]
  rw [countP_high (fun _ => rfl) (by decide), countP_high (fun _ => rfl) (by decide),
    countP_high (fun _ => rfl) (by decide), Tally.ofObservations_eq, forms, bindings, pages]
  rfl

theorem bindsGeneration_eq (generation : Generation) :
    (ofObservations observations failures).bindsGeneration generation =
      decide (0 < boundCount observations generation) := by
  rw [bindsGeneration_ofObservations, any_eq_pos_total, boundCount]

theorem writesSchemas_eq (library : Validation) :
    (ofObservations observations failures).writesSchemas library =
      decide (0 < schemaCount observations library) := by
  rw [writesSchemas_ofObservations, any_eq_pos_total, schemaCount]

theorem formCount_absent :
    (ofObservations observations failures).formCount .absent = unvalidatedCount observations := by
  rw [formCount_ofObservations, unvalidatedCount, total_countP]

end Findings

/-! ## Recommendations of the standard rules -/

namespace Findings

theorem rule_of_recommendation? {rule : RecommendationRule} {findings : Findings}
    {recommendation : Recommendation}
    (given : rule.recommendation? findings = some recommendation) :
    recommendation.rule = rule.id := by
  rw [RecommendationRule.recommendation?] at given
  split at given
  · cases given
    rfl
  · cases given

/-- With different names for all rules, each recommendation is found under that of its rule. -/
theorem recommendation?_report (findings : Findings) {rules : List RecommendationRule}
    (distinct : (rules.map RecommendationRule.id).Nodup) {rule : RecommendationRule}
    (listed : rule ∈ rules) :
    (findings.report rules).recommendation? rule.id = rule.recommendation? findings := by
  induction rules with
  | nil => cases listed
  | cons next rest ih =>
      obtain ⟨isNew, restDistinct⟩ := List.nodup_cons.mp distinct
      rw [PatternReport.recommendation?, report, List.filterMap_cons]
      -- the rule's own recommendation is the first of its name, if there is one at all
      rcases List.mem_cons.mp listed with rfl | later
      · cases given : rule.recommendation? findings with
        | some recommendation =>
            exact List.find?_cons_of_pos (decide_eq_true (rule_of_recommendation? given))
        | none =>
            rw [List.find?_eq_none]
            intro recommendation member same
            obtain ⟨other, otherListed, given⟩ := List.mem_filterMap.mp member
            have sameId := (rule_of_recommendation? given).symm.trans (of_decide_eq_true same)
            exact isNew (sameId ▸ List.mem_map_of_mem otherListed)
      · have unlike : next.id ≠ rule.id := fun same =>
          isNew (same ▸ List.mem_map_of_mem later)
        cases given : next.recommendation? findings with
        | none => exact ih restDistinct later
        | some recommendation =>
            rw [← ih restDistinct later]
            refine List.find?_cons_of_neg ?_
            rwa [decide_eq_true_eq, rule_of_recommendation? given]

end Findings

def standardReport (observations : List FileObservation) (failures : List FileFailure) :
    PatternReport :=
  (Findings.ofObservations observations failures).report RecommendationRule.standard

section StandardReport

variable (observations : List FileObservation) (failures : List FileFailure)

theorem isSome_recommendation?_standardReport (rule : RecommendationRule)
    (listed : rule ∈ RecommendationRule.standard) :
    ((standardReport observations failures).recommendation? rule.id).isSome =
      rule.applies (.ofObservations observations failures) := by
  rw [standardReport, Findings.recommendation?_report _ (by decide) listed,
    RecommendationRule.recommendation?]
  split <;> simp [*]

theorem map_recommendation?_standardReport {β : Type} (rule : RecommendationRule)
    (listed : rule ∈ RecommendationRule.standard) (read : Recommendation → β) :
    ((standardReport observations failures).recommendation? rule.id).map read =
      if rule.applies (.ofObservations observations failures) then
        some (read { rule.recommend (.ofObservations observations failures) with rule := rule.id })
      else none := by
  rw [standardReport, Findings.recommendation?_report _ (by decide) listed,
    RecommendationRule.recommendation?, apply_ite (Option.map read)]
  rfl

end StandardReport

theorem recommendations_of_sameSums {first second : List FileObservation}
    (same : SameSums first second) (failures otherFailures : List FileFailure) :
    (standardReport first failures).recommendations =
      (standardReport second otherFailures).recommendations := by
  have agreed : ∀ rule ∈ RecommendationRule.standard,
      rule.recommendation? (.ofObservations first failures) =
        rule.recommendation? (.ofObservations second otherFailures) := by
    intro rule listed
    simp only [RecommendationRule.standard, List.mem_cons, List.not_mem_nil, or_false] at listed
    rcases listed with rfl | rfl | rfl | rfl | rfl
    · simp only [RecommendationRule.recommendation?, RecommendationRule.secondGenerationSupport,
        RecommendationRule.bindsFirstOnly, Findings.bindsGeneration_eq, same.bound]
    · simp only [RecommendationRule.recommendation?, RecommendationRule.dedicatedTemplates,
        Findings.frequentPatterns_ofObservations, same.frequent]
    · simp only [RecommendationRule.recommendation?, RecommendationRule.validationFlexibility,
        Findings.writesSchemas_eq, same.schemas]
    · simp only [RecommendationRule.recommendation?, RecommendationRule.validationUpgrade,
        Findings.formCount_absent, same.unvalidated]
    · simp only [RecommendationRule.recommendation?, RecommendationRule.dataSourceConsolidation,
        RecommendationRule.bindsBoth, Findings.bindsGeneration_eq, same.bound]
  exact List.filterMap_congr agreed

/-- How recommendations follow from the sums over some files. -/
structure FollowsSums (observations : List FileObservation) (report : PatternReport) : Prop where
  support : (report.recommendation? "datasource-v2-support").isSome ↔
    0 < boundCount observations .v1 ∧ boundCount observations .v2 = 0 ∧
      boundCount observations .mixed = 0
  consolidation : (report.recommendation? "datasource-consolidation").isSome ↔
    0 < boundCount observations .mixed ∨
      0 < boundCount observations .v1 ∧ 0 < boundCount observations .v2
  upgrade :
    (report.recommendation? "validation-upgrade").map (fun given =>
        (given.description, given.priority)) =
      if 0 < unvalidatedCount observations then
        some (s!"{unvalidatedCount observations} form(s) have no validation schema.",
          if 5 ≤ unvalidatedCount observations then .high else .medium)
      else none
  flexibility : (report.recommendation? "validation-flexibility").isSome ↔
    0 < schemaCount observations .yup ∧ 0 < schemaCount observations .zod
  templates :
    (report.recommendation? "dedicated-templates").map Recommendation.description =
      if 0 < frequentGroups observations then
        some (s!"Found {frequentGroups observations} frequent patterns that deserve " ++
          "dedicated templates.")
      else none

theorem followsSums_standardReport (observations : List FileObservation)
    (failures : List FileFailure) :
    FollowsSums observations (standardReport observations failures) where
  support := by
    have fires := isSome_recommendation?_standardReport observations failures
      .secondGenerationSupport (by simp [RecommendationRule.standard])
    simp only [RecommendationRule.secondGenerationSupport, RecommendationRule.bindsFirstOnly,
      Findings.bindsGeneration_eq] at fires
    simp [fires, and_assoc]
  consolidation := by
    have fires := isSome_recommendation?_standardReport observations failures
      .dataSourceConsolidation (by simp [RecommendationRule.standard])
    simp only [RecommendationRule.dataSourceConsolidation, RecommendationRule.bindsBoth,
      Findings.bindsGeneration_eq] at fires
    simp [fires]
  upgrade := by
    have given := map_recommendation?_standardReport observations failures
      .validationUpgrade (by simp [RecommendationRule.standard])
      fun given => (given.description, given.priority)
    simpa only [RecommendationRule.validationUpgrade, Findings.formCount_absent,
      urgentUnvalidatedForms, decide_eq_true_eq] using given
  flexibility := by
    have fires := isSome_recommendation?_standardReport observations failures
      .validationFlexibility (by simp [RecommendationRule.standard])
    simp only [RecommendationRule.validationFlexibility, Findings.writesSchemas_eq] at fires
    simp [fires]
  templates := by
    have given := map_recommendation?_standardReport observations failures
      .dedicatedTemplates (by simp [RecommendationRule.standard])
      Recommendation.description
    simpa only [RecommendationRule.dedicatedTemplates, Findings.frequentPatterns_ofObservations,
      decide_eq_true_eq] using given

/-- Files in another order, and any files with the same sums, lead to the same recommendations,
and what these are can be read off the sums. -/
theorem recommendations_determined_by_sums (observations : List FileObservation)
    (failures : List FileFailure) :
    (∀ others otherFailures, others.Perm observations ∨ SameSums others observations →
      (standardReport others otherFailures).recommendations =
        (standardReport observations failures).recommendations) ∧
      FollowsSums observations (standardReport observations failures) := by
  refine ⟨fun others otherFailures alike => ?_, followsSums_standardReport observations failures⟩
  have same := alike.elim SameSums.of_perm id
  exact recommendations_of_sameSums same otherFailures failures

def withForms (file : String) (count : Nat) : FileObservation :=
  { file := file
    usages := []
    forms := List.replicate count ⟨[], .absent, "vertical", [], ""⟩
    validation := []
    page := none }

-- neither file has enough forms to call for a template, both together have
theorem recommendations_determined_by_sums_plainForms :
    let report := standardReport [withForms "B.tsx" 4, withForms "A.tsx" 1] []
    (standardReport [withForms "A.tsx" 1, withForms "B.tsx" 4] []).recommendations =
        report.recommendations ∧
      (report.recommendation? "validation-upgrade").map (fun given =>
          (given.description, given.priority)) =
        some ("5 form(s) have no validation schema.", .high) ∧
      (report.recommendation? "dedicated-templates").map Recommendation.description =
        some "Found 1 frequent patterns that deserve dedicated templates." := by
  obtain ⟨ordered, followed⟩ := recommendations_determined_by_sums
    [withForms "B.tsx" 4, withForms "A.tsx" 1] []
  have unvalidated :
      unvalidatedCount [withForms "B.tsx" 4, withForms "A.tsx" 1] = 5 := by decide
  have frequent : frequentGroups [withForms "B.tsx" 4, withForms "A.tsx" 1] = 1 := by decide
  refine ⟨ordered _ [] (.inl (.swap _ _ [])), followed.upgrade.trans ?_,
    followed.templates.trans ?_⟩
  · rw [unvalidated]
    rfl
  · rw [frequent]
    rfl

end ComponentSurvey
