import ComponentSurvey.Proofs.Facts.Issues
import ComponentSurvey.Proofs.Facts.Usages
import Mathlib.Data.Finset.Card

/-!
# Required props

Whether a prop is required is asked twice: when a prop is read off its attribute, and when the
issues of the element are looked for.  Both ask the same table, so a required prop is marked
wherever it is given, and is reported missing if it is not given at all.
-/

namespace ComponentSurvey

open Syntax

namespace Issue

def reportsMissing (issue : Issue) (prop : String) : Bool :=
  issue.severity = .error && issue.message = s!"Missing required prop: {prop}"

theorem reportsMissing_missingIssue (component : String) (line column : Nat)
    (missing prop : String) :
    (missingIssue component line column missing).reportsMissing prop = decide (missing = prop) := by
  simp [reportsMissing, missingIssue, ToString.toString]

end Issue

theorem mem_missingProps {component name : String} {names : List String} :
    name ∈ missingProps component names ↔
      name ∈ Library.requiredProps component ∧ name ∉ names := by
  simp [missingProps]

theorem nodup_missingProps (component : String) (names : List String) :
    (missingProps component names).Nodup :=
  (Library.nodup_requiredProps component).filter _

theorem filter_reportsMissing {component : String} {names : List String} {line column : Nat}
    {issues : List Issue}
    (errors : errorsOf issues =
      (missingProps component names).map (missingIssue component line column))
    (prop : String) :
    (issues.filter fun issue => issue.reportsMissing prop) =
      if prop ∈ missingProps component names then [missingIssue component line column prop]
      else [] := by
  have amongErrors : (issues.filter fun issue => issue.reportsMissing prop) =
      (errorsOf issues).filter fun issue => issue.reportsMissing prop := by
    rw [errorsOf, List.filter_filter]
    refine List.filter_congr fun issue _ => ?_
    unfold Issue.reportsMissing
    cases issue.severity <;> simp
  rw [amongErrors, errors, List.filter_map]
  simp only [Function.comp_def, Issue.reportsMissing_missingIssue]
  rw [List.filter_eq, (nodup_missingProps component names).count]
  split <;> rfl

theorem isRequired_of_mem_placedProps {document : Document} {component : String} {element : Node}
    {placed : PlacedProp} (member : placed ∈ placedProps document component element) :
    placed.prop.isRequired =
      if placed.prop.name ∈ Library.requiredProps component then some true else none := by
  obtain ⟨attr, -, read⟩ := List.mem_filterMap.mp member
  unfold placedProp? at read
  split at read
  · cases read
  · split at read
    · cases read
    · cases read
      simp [Library.isRequiredProp_eq]

namespace Usage

/-- The names of the props that are given, as often as they are. -/
def givenNames (usage : Usage) : List String := usage.props.map GivenProp.name

def markedProps (usage : Usage) : List GivenProp :=
  usage.props.filter fun prop => prop.isRequired = some true

/-- Each required prop is marked where it is given, or else missed in one error at the element, and
no other prop is marked and no other error there. -/
structure AccountsForRequired (usage : Usage) : Prop where
  present : ∀ name ∈ Library.requiredProps usage.name, name ∈ usage.givenNames →
    (∀ prop ∈ usage.props, prop.name = name → prop.isRequired = some true) ∧
      ∀ issue ∈ usage.issues, issue.reportsMissing name = false
  absent : ∀ name ∈ Library.requiredProps usage.name, name ∉ usage.givenNames →
    (usage.issues.filter fun issue => issue.reportsMissing name) =
      [missingIssue usage.name usage.line usage.column name]
  noOtherMark : ∀ prop ∈ usage.props, prop.isRequired ≠ none →
    prop.name ∈ Library.requiredProps usage.name
  noOtherError : ∀ issue ∈ usage.issues, issue.severity = .error →
    ∃ name ∈ Library.requiredProps usage.name,
      name ∉ usage.givenNames ∧ issue.reportsMissing name = true
  balance : usage.issueCount .error + (usage.markedProps.map GivenProp.name).toFinset.card =
    (Library.requiredProps usage.name).length

variable {usage : Usage}

theorem mem_markedNames_iff
    (marks : ∀ prop ∈ usage.props, prop.isRequired =
      if prop.name ∈ Library.requiredProps usage.name then some true else none) {name : String} :
    name ∈ usage.markedProps.map GivenProp.name ↔
      name ∈ Library.requiredProps usage.name ∧ name ∈ usage.givenNames := by
  simp only [markedProps, givenNames, List.mem_map, List.mem_filter, decide_eq_true_eq]
  constructor
  · rintro ⟨prop, ⟨given, marked⟩, rfl⟩
    rw [marks prop given] at marked
    refine ⟨?_, prop, given, rfl⟩
    by_contra other
    simp [other] at marked
  · rintro ⟨required, prop, given, rfl⟩
    exact ⟨prop, ⟨given, by rw [marks prop given, if_pos required]⟩, rfl⟩

theorem accountsForRequired
    (marks : ∀ prop ∈ usage.props, prop.isRequired =
      if prop.name ∈ Library.requiredProps usage.name then some true else none)
    (errors : errorsOf usage.issues =
      (missingProps usage.name usage.givenNames).map
        (missingIssue usage.name usage.line usage.column)) :
    usage.AccountsForRequired where
  present name required given := by
    constructor
    · intro prop listed named
      rw [marks prop listed, named, if_pos required]
    · have reports := filter_reportsMissing errors name
      rw [if_neg fun missing => (mem_missingProps.mp missing).2 given] at reports
      intro issue listed
      simpa using List.filter_eq_nil_iff.mp reports issue listed
  absent name required missing := by
    rw [filter_reportsMissing errors, if_pos (mem_missingProps.mpr ⟨required, missing⟩)]
  noOtherMark prop listed marked := by
    by_contra other
    exact marked (by rw [marks prop listed, if_neg other])
  noOtherError issue listed isError := by
    have member : issue ∈ errorsOf usage.issues :=
      List.mem_filter.mpr ⟨listed, decide_eq_true isError⟩
    rw [errors] at member
    obtain ⟨name, missing, rfl⟩ := List.mem_map.mp member
    obtain ⟨required, absent⟩ := mem_missingProps.mp missing
    exact ⟨name, required, absent, by simp [Issue.reportsMissing_missingIssue]⟩
  balance := by
    have errorCount : usage.issueCount .error =
        (missingProps usage.name usage.givenNames).length := by
      rw [issueCount, List.countP_eq_length_filter, ← errorsOf, errors, List.length_map]
    have marked : (usage.markedProps.map GivenProp.name).toFinset =
        ((Library.requiredProps usage.name).filter
          fun name => name ∈ usage.givenNames).toFinset := by
      ext name
      simpa using mem_markedNames_iff marks
    have distinct := (Library.nodup_requiredProps usage.name).filter
      fun name => name ∈ usage.givenNames
    rw [errorCount, marked, List.toFinset_card_of_nodup distinct, missingProps]
    have split := List.length_eq_length_filter_add (l := Library.requiredProps usage.name)
      (fun name => decide (name ∈ usage.givenNames))
    simp only [decide_not]
    omega

end Usage

/-- Every usage accounts for the props that its component requires, by what its tag is given and
with errors that are placed at the tag. -/
theorem accountsForRequired_of_mem_extractUsages {battery : List Predicate} {document : Document}
    {usage : Usage} (member : usage ∈ extractUsages battery document) :
    usage.AccountsForRequired ∧
      ∃ element ∈ document.nodes, isTag element.kind = true ∧
        document.position element = (usage.line, usage.column) ∧
        usage.props = (placedProps document usage.name element).map PlacedProp.prop := by
  obtain ⟨element, visited, tag, position, props, issues⟩ :=
    exists_tag_of_mem_extractUsages member
  refine ⟨Usage.accountsForRequired ?_ ?_, element, visited, tag, position, props⟩
  · rw [props]
    exact List.forall_mem_map.mpr fun placed => isRequired_of_mem_placedProps
  · have names : usage.givenNames = propNames (placedProps document usage.name element) := by
      rw [Usage.givenNames, props, List.map_map]
      rfl
    rw [names, issues, errorsOf_detectIssues]

def aliasedField : List Char :=
  ("import \x7b ArchbaseEdit as Field \x7d from '@archbase/react';\n" ++
    "const x = <Field dataSource=\x7ba\x7d \x7b...rest\x7d dataSource=\x7bb\x7d " ++
    "data:dataField=\"name\" />;\n").toList

theorem accountsForRequired_of_mem_extractUsages_aliasedField :
    ∃ document, Document.ofComponentFile? "src/App.tsx" aliasedField = some document ∧
      ∃ usage ∈ extractUsages Predicate.standard document,
        usage.name = "ArchbaseEdit" ∧
          usage.givenNames = ["dataSource", "dataSource", "data:dataField"] ∧
          usage.props.map GivenProp.isRequired = [some true, some true, none] ∧
          usage.issues = [missingIssue "ArchbaseEdit" 2 10 "dataField"] ∧
          usage.AccountsForRequired := by
  have read : (Document.ofComponentFile? "src/App.tsx" aliasedField).any (fun document =>
      (extractUsages Predicate.standard document).any fun usage =>
        usage.name = "ArchbaseEdit" &&
          (usage.givenNames = ["dataSource", "dataSource", "data:dataField"] &&
          (usage.props.map GivenProp.isRequired = [some true, some true, none] &&
            usage.issues = [missingIssue "ArchbaseEdit" 2 10 "dataField"]))) = true := by
    decide +kernel
  obtain ⟨document, parsed, extracted⟩ := (Option.any_eq_true _ _).mp read
  obtain ⟨usage, member, told⟩ := List.any_eq_true.mp extracted
  simp only [Bool.and_eq_true, decide_eq_true_eq] at told
  obtain ⟨name, names, marks, issues⟩ := told
  exact ⟨document, parsed, usage, member, name, names, marks, issues,
    (accountsForRequired_of_mem_extractUsages member).1⟩

end ComponentSurvey
