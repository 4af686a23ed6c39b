import ComponentSurvey.Facts.Basic
import ComponentSurvey.Order.Total
import ComponentSurvey.Patterns.Observation
import ComponentSurvey.Survey.Failure

/-!
# Patterns of a project

Groups of things that a project does alike, the patterns that the larger groups amount to, and
what is recommended because of them.
-/

namespace ComponentSurvey

structure DataSourceGroup where
  component : String
  generation : Generation
  count : Nat
  props : List (String × Nat)
  tags : List String
  files : List String
deriving DecidableEq, Repr, Inhabited

structure FormGroup where
  fieldTypes : List String
  validation : Validation
  layout : String
  features : List String
  complexity : Complexity
  count : Nat
  files : List String
deriving DecidableEq, Repr, Inhabited

structure ComponentGroup where
  component : String
  count : Nat
  props : List (String × Nat)
  tags : List String
  contexts : List String
deriving DecidableEq, Repr, Inhabited

structure SchemaGroup where
  library : Validation
  rules : List String
  count : Nat
  files : List String
deriving DecidableEq, Repr, Inhabited

structure PageGroup where
  layout : String
  sections : List String
  navigation : Bool
  authentication : Bool
  count : Nat
  files : List String
deriving DecidableEq, Repr, Inhabited

inductive PatternKind
  | form | view | page | component | layout
deriving DecidableEq, Repr, Inhabited

namespace PatternKind

def label : PatternKind → String
  | .form => "form"
  | .view => "view"
  | .page => "page"
  | .component => "component"
  | .layout => "layout"

def ofLabel? : String → Option PatternKind
  | "form" => some .form
  | "view" => some .view
  | "page" => some .page
  | "component" => some .component
  | "layout" => some .layout
  | _ => none

end PatternKind

structure PatternExample where
  file : String
  code : String
  description : String
deriving DecidableEq, Repr, Inhabited

structure DetectedPattern where
  name : String
  kind : PatternKind
  count : Nat
  priority : Priority
  files : List String
  description : String
  template : String
  parameters : List (String × Json)
  examples : List PatternExample
deriving DecidableEq, Repr, Inhabited

inductive RecommendationKind
  | template | parameter | pattern | optimization
deriving DecidableEq, Repr, Inhabited

namespace RecommendationKind

def label : RecommendationKind → String
  | .template => "template"
  | .parameter => "parameter"
  | .pattern => "pattern"
  | .optimization => "optimization"

def ofLabel? : String → Option RecommendationKind
  | "template" => some .template
  | "parameter" => some .parameter
  | "pattern" => some .pattern
  | "optimization" => some .optimization
  | _ => none

end RecommendationKind

structure Recommendation where
  rule : String
  kind : RecommendationKind
  title : String
  description : String
  priority : Priority
  implementation : String
deriving DecidableEq, Repr, Inhabited

/-- All that is found in a project, before anything is recommended. -/
structure Findings where
  filesAnalyzed : Nat
  failures : List FileFailure
  patterns : List DetectedPattern
  dataSources : List DataSourceGroup
  forms : List FormGroup
  components : List ComponentGroup
  schemas : List SchemaGroup
  pages : List PageGroup
deriving DecidableEq, Repr, Inhabited

namespace Findings

def formCount (findings : Findings) (validation : Validation) : Nat :=
  Order.total FormGroup.count
    (findings.forms.filter fun group => group.validation = validation)

def bindsGeneration (findings : Findings) (generation : Generation) : Bool :=
  findings.dataSources.any fun group => group.generation = generation

def writesSchemas (findings : Findings) (library : Validation) : Bool :=
  findings.schemas.any fun group => group.library = library

end Findings

structure PatternReport where
  findings : Findings
  recommendations : List Recommendation
deriving DecidableEq, Repr, Inhabited

def PatternReport.recommendation? (report : PatternReport) (rule : String) :
    Option Recommendation :=
  report.recommendations.find? fun recommendation => recommendation.rule = rule

end ComponentSurvey
