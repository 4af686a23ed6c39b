import ComponentSurvey.Patterns.Basic

/-!
# Recommendations

Each rule looks at the findings alone, so the rules can be applied in any order; their
recommendations come in the order of the rules.
-/

namespace ComponentSurvey

structure RecommendationRule where
  id : String
  applies : Findings → Bool
  recommend : Findings → Recommendation

namespace RecommendationRule

def recommendation? (rule : RecommendationRule) (findings : Findings) : Option Recommendation :=
  if rule.applies findings then some { rule.recommend findings with rule := rule.id } else none

def bindsFirstOnly (findings : Findings) : Bool :=
  findings.bindsGeneration .v1 && !findings.bindsGeneration .v2 &&
    !findings.bindsGeneration .mixed

def bindsBoth (findings : Findings) : Bool :=
  findings.bindsGeneration .mixed ||
    (findings.bindsGeneration .v1 && findings.bindsGeneration .v2)

def frequentPatterns (findings : Findings) : Nat :=
  findings.patterns.countP fun pattern => pattern.priority = .high

def secondGenerationSupport : RecommendationRule :=
  { id := "datasource-v2-support"
    applies := bindsFirstOnly
    recommend := fun _ =>
      { rule := "datasource-v2-support"
        kind := .parameter
        title := "Add DataSource V2 support"
        description := "The project only uses DataSource V1. Consider migrating to V2 for " ++
          "better performance."
        priority := .medium
        implementation := "Add a --datasource-version=v2 parameter to the generators" } }

def dedicatedTemplates : RecommendationRule :=
  { id := "dedicated-templates"
    applies := fun findings => 0 < frequentPatterns findings
    recommend := fun findings =>
      { rule := "dedicated-templates"
        kind := .template
        title := "Create dedicated templates"
        description := s!"Found {frequentPatterns findings} frequent patterns that deserve " ++
          "dedicated templates."
        priority := .high
        implementation := "Create specific templates for the most used patterns" } }

def validationFlexibility : RecommendationRule :=
  { id := "validation-flexibility"
    applies := fun findings => findings.writesSchemas .yup && findings.writesSchemas .zod
    recommend := fun _ =>
      { rule := "validation-flexibility"
        kind := .parameter
        title := "Make the validation library configurable"
        description := "The project uses both Yup and Zod. Add a parameter to choose between " ++
          "them."
        priority := .medium
        implementation := "Add a --validation=yup|zod parameter to the form generators" } }

def validationUpgrade : RecommendationRule :=
  { id := "validation-upgrade"
    applies := fun findings => 0 < findings.formCount .absent
    recommend := fun findings =>
      { rule := "validation-upgrade"
        kind := .pattern
        title := "Add validation to forms"
        description := s!"{findings.formCount .absent} form(s) have no validation schema."
        priority :=
          if urgentUnvalidatedForms ≤ findings.formCount .absent then .high else .medium
        implementation := "Attach a yup or zod schema to every ArchbaseFormTemplate" } }

def dataSourceConsolidation : RecommendationRule :=
  { id := "datasource-consolidation"
    applies := bindsBoth
    recommend := fun _ =>
      { rule := "datasource-consolidation"
        kind := .optimization
        title := "Consolidate DataSource versions"
        description := "DataSource V1 and V2 are used side by side."
        priority := .low
        implementation :=
          "Run \x60archbase migrate v1-to-v2\x60 to move the remaining V1 usages" } }

def standard : List RecommendationRule :=
  [secondGenerationSupport, dedicatedTemplates, validationFlexibility, validationUpgrade,
    dataSourceConsolidation]

end RecommendationRule

def Findings.report (findings : Findings) (rules : List RecommendationRule) : PatternReport :=
  ⟨findings, rules.filterMap fun rule => rule.recommendation? findings⟩

end ComponentSurvey
