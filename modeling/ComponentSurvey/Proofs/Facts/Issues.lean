import ComponentSurvey.Facts.Extraction

/-!
# Issues of an element

An element has one error for each required prop that it lacks, in the order in which its component
requires them, and a warning or suggestion just where one of its attributes is out of date.
-/

namespace ComponentSurvey

def propNames (props : List PlacedProp) : List String :=
  props.map fun placed => placed.prop.name

theorem isSome_findProp? (props : List PlacedProp) (name : String) :
    (findProp? props name).isSome = decide (name ∈ propNames props) := by
  rw [Bool.eq_iff_iff]
  simp [findProp?, propNames]

theorem findProp?_eq_none_iff {props : List PlacedProp} {name : String} :
    findProp? props name = none ↔ name ∉ propNames props := by
  rw [← Option.not_isSome_iff_eq_none, isSome_findProp?, decide_eq_true_eq]

theorem rulesFor?_mem {component : String} {rules : Library.PropRules}
    (found : Library.rulesFor? component = some rules) : rules ∈ Library.propRules :=
  List.mem_of_find?_eq_some found

namespace Library

def requiredProps (component : String) : List String :=
  ((rulesFor? component).map PropRules.required).getD []

/-- Props that should go and props that another one replaces. -/
def PropRules.outdated (rules : PropRules) : List String :=
  (rules.deprecated ++ rules.replaced).map Prod.fst

def outdatedProps (component : String) : List String :=
  ((rulesFor? component).map PropRules.outdated).getD []

theorem isRequiredProp_eq (component prop : String) :
    isRequiredProp component prop = decide (prop ∈ requiredProps component) := by
  unfold isRequiredProp requiredProps
  cases rulesFor? component <;> simp

theorem nodup_requiredProps (component : String) : (requiredProps component).Nodup := by
  have distinct : ∀ rules ∈ propRules, rules.required.Nodup := by decide
  unfold requiredProps
  cases found : rulesFor? component with
  | none => exact List.nodup_nil
  | some rules => exact distinct rules (rulesFor?_mem found)

end Library

def missingIssue (component : String) (line column : Nat) (prop : String) : Issue :=
  ⟨.error, s!"Missing required prop: {prop}", some s!"Add {prop} prop to {component}",
    some line, some column⟩

def deprecatedIssue (component : String) (entry : String × String) (placed : PlacedProp) : Issue :=
  ⟨.warning, s!"Deprecated prop {entry.1}: {entry.2}",
    some s!"Remove {entry.1} from {component}", some placed.line, some placed.column⟩

def replaceableIssue (entry : String × String) (placed : PlacedProp) : Issue :=
  ⟨.suggestion, s!"Prop {entry.1} can be replaced by {entry.2}",
    some s!"Rename {entry.1} to {entry.2}", some placed.line, some placed.column⟩

@[simp] theorem severity_missingIssue (component : String) (line column : Nat) (prop : String) :
    (missingIssue component line column prop).severity = .error := rfl

@[simp] theorem severity_deprecatedIssue (component : String) (entry : String × String)
    (placed : PlacedProp) : (deprecatedIssue component entry placed).severity = .warning := rfl

@[simp] theorem severity_replaceableIssue (entry : String × String) (placed : PlacedProp) :
    (replaceableIssue entry placed).severity = .suggestion := rfl

section Elements

variable {component : String} {rules : Library.PropRules} (line column : Nat)
  (props : List PlacedProp)

theorem detectIssues_eq (found : Library.rulesFor? component = some rules) :
    detectIssues component line column props =
      ((rules.required.filter fun name => name ∉ propNames props).map
          (missingIssue component line column)) ++
        (rules.deprecated.filterMap fun entry =>
          (findProp? props entry.1).map (deprecatedIssue component entry)) ++
        rules.replaced.filterMap fun entry =>
          (findProp? props entry.1).map (replaceableIssue entry) := by
  rw [detectIssues, found]
  dsimp only
  congr 2
  induction rules.required with
  | nil => rfl
  | cons name rest ih =>
      rw [List.filterMap_cons, ih]
      cases given : findProp? props name with
      | none => simp [findProp?_eq_none_iff.mp given, missingIssue]
      | some placed =>
          have listed : name ∈ propNames props := by
            simpa [given] using isSome_findProp? props name
          simp [listed]

theorem detectIssues_eq_nil (unruled : Library.rulesFor? component = none) :
    detectIssues component line column props = [] := by
  rw [detectIssues, unruled]

def errorsOf (issues : List Issue) : List Issue :=
  issues.filter fun issue => issue.severity = .error

def missingProps (component : String) (names : List String) : List String :=
  (Library.requiredProps component).filter fun name => name ∉ names

theorem errorsOf_detectIssues (component : String) :
    errorsOf (detectIssues component line column props) =
      (missingProps component (propNames props)).map (missingIssue component line column) := by
  unfold missingProps Library.requiredProps
  cases found : Library.rulesFor? component with
  | none => rw [detectIssues_eq_nil line column props found]; rfl
  | some rules =>
      rw [detectIssues_eq line column props found]
      simp [errorsOf, List.filter_append, List.filter_map, List.filter_filterMap,
        Function.comp_def, Option.filter_map]

theorem onlyErrors_iff (component : String) :
    (∀ issue ∈ detectIssues component line column props, issue.severity = .error) ↔
      ∀ name ∈ Library.outdatedProps component, name ∉ propNames props := by
  unfold Library.outdatedProps
  cases found : Library.rulesFor? component with
  | none => simp [detectIssues_eq_nil line column props found]
  | some rules =>
      rw [detectIssues_eq line column props found]
      simp only [List.forall_mem_append, List.forall_mem_map, List.forall_mem_filterMap,
        Option.map_eq_some_iff]
      simp [Library.PropRules.outdated, or_imp, forall_and, ← findProp?_eq_none_iff,
        Option.eq_none_iff_forall_ne_some]

end Elements

end ComponentSurvey
