import ComponentSurvey.Facts.Json
import ComponentSurvey.Proofs.Json.RoundTrip

/-!
# Usages as texts

A usage is read back from the text that is written for it, and what is not set is not written.
-/

namespace ComponentSurvey

open Json

namespace Json

@[simp] theorem member?_nil (name : String) : member? name [] = none := rfl

theorem member?_append (name : String) (first second : List (String × Json)) :
    member? name (first ++ second) = (member? name second).or (member? name first) := by
  rw [member?, List.reverse_append, List.find?_append, Option.map_or]
  rfl

theorem member?_singleton (name key : String) (value : Json) :
    member? name [(key, value)] = if key = name then some value else none := by
  by_cases same : key = name <;> simp [member?, same]

theorem member?_cons (name key : String) (value : Json) (rest : List (String × Json)) :
    member? name ((key, value) :: rest) =
      (member? name rest).or (if key = name then some value else none) := by
  rw [← List.singleton_append, member?_append, member?_singleton]

theorem member?_optional (name key : String) (value : Option Json) :
    member? name (optional key value) = if key = name then value else none := by
  cases value with
  | none => simp [optional]
  | some value => simp [optional, member?_singleton]

theorem mem_optional {name key : String} {written : Json} {value : Option Json} :
    (name, written) ∈ optional key value ↔ name = key ∧ value = some written := by
  cases value <;> simp [optional, eq_comm]

/-- Whether an object has a member of the name, be it null. -/
def HasMember (json : Json) (name : String) : Prop :=
  ∃ members value, json = .object members ∧ (name, value) ∈ members

end Json

@[simp] theorem Severity.ofLabel?_label (severity : Severity) :
    ofLabel? severity.label = some severity := by
  cases severity <;> rfl

@[simp] theorem PropKind.ofLabel?_label (kind : PropKind) : ofLabel? kind.label = some kind := by
  cases kind <;> rfl

@[simp] theorem Generation.ofLabel?_label (generation : Generation) :
    ofLabel? generation.label = some generation := by
  cases generation <;> rfl

theorem Issue.ofJson?_toJson (issue : Issue) : Issue.ofJson? issue.toJson = some issue := by
  obtain ⟨severity, message, fix, line, column⟩ := issue
  cases fix <;> cases line <;> cases column <;>
    simp [Issue.toJson, Issue.ofJson?, members?, stringField?, optionalField?, present?,
      member?_append, member?_cons, member?_optional, Json.string?, Json.nat?, Json.nat]

theorem GivenProp.ofJson?_toJson {prop : GivenProp} (notNull : prop.value ≠ some .null) :
    GivenProp.ofJson? prop.toJson = some prop := by
  obtain ⟨name, kind, value, isRequired⟩ := prop
  have valueRead : present? "value" (optional "value" value) = value := by
    cases value with
    | none => rfl
    | some json => cases json <;> first | rfl | exact absurd rfl notNull
  cases isRequired <;>
    simp_all [GivenProp.toJson, GivenProp.ofJson?, members?, stringField?, optionalField?,
      present?, member?_append, member?_cons, member?_optional, Json.string?, Json.bool?]

theorem mapM_map_of_read {α : Type} {write : α → Json} {read : Json → Option α} {values : List α}
    (inverse : ∀ value ∈ values, read (write value) = some value) :
    (values.map write).mapM read = some values := by
  induction values with
  | nil => rfl
  | cons value rest ih =>
      obtain ⟨first, others⟩ := List.forall_mem_cons.mp inverse
      rw [List.map_cons, List.mapM_cons, first, ih others]
      rfl

theorem Usage.ofJson?_toJson {usage : Usage}
    (notNull : ∀ prop ∈ usage.props, prop.value ≠ some .null) :
    Usage.ofJson? usage.toJson = some usage := by
  have props : (usage.props.map GivenProp.toJson).mapM GivenProp.ofJson? = some usage.props :=
    mapM_map_of_read fun prop member => GivenProp.ofJson?_toJson (notNull prop member)
  have patterns : (usage.patterns.map Json.string).mapM Json.string? = some usage.patterns :=
    mapM_map_of_read fun _ _ => rfl
  have issues : (usage.issues.map Issue.toJson).mapM Issue.ofJson? = some usage.issues :=
    mapM_map_of_read fun issue _ => Issue.ofJson?_toJson issue
  simp [Usage.toJson, Usage.ofJson?, members?, stringField?, boolField?, natField?, listField?,
    member?_cons, Json.string?, Json.bool?, Json.nat?, Json.nat, Json.items?, strings, props,
    patterns, issues]

/-- What an issue may leave out is a member of the object just when it is set. -/
structure Issue.Members (issue : Issue) (json : Json) : Prop where
  fix : HasMember json "fix" ↔ issue.fix.isSome
  line : HasMember json "line" ↔ issue.line.isSome
  column : HasMember json "column" ↔ issue.column.isSome

theorem Issue.members_toJson (issue : Issue) : issue.Members issue.toJson where
  fix := by simp [HasMember, Issue.toJson, mem_optional, Option.isSome_iff_exists]
  line := by simp [HasMember, Issue.toJson, mem_optional, Option.isSome_iff_exists]
  column := by simp [HasMember, Issue.toJson, mem_optional, Option.isSome_iff_exists]

structure GivenProp.Members (prop : GivenProp) (json : Json) : Prop where
  value : HasMember json "value" ↔ prop.value.isSome
  isRequired : HasMember json "isRequired" ↔ prop.isRequired.isSome

theorem GivenProp.members_toJson (prop : GivenProp) : prop.Members prop.toJson where
  value := by simp [HasMember, GivenProp.toJson, mem_optional, Option.isSome_iff_exists]
  isRequired := by
    cases required : prop.isRequired <;>
      simp [HasMember, GivenProp.toJson, mem_optional, required]

structure Usage.Members (usage : Usage) (json : Json) : Prop where
  props : ∃ members items, json = .object members ∧
    member? "props" members = some (.array items) ∧
    List.Forall₂ GivenProp.Members usage.props items
  issues : ∃ members items, json = .object members ∧
    member? "issues" members = some (.array items) ∧
    List.Forall₂ Issue.Members usage.issues items

theorem Usage.members_toJson (usage : Usage) : usage.Members usage.toJson where
  props := by
    refine ⟨_, usage.props.map GivenProp.toJson, rfl, by simp [member?_cons], ?_⟩
    rw [List.forall₂_map_right_iff, List.forall₂_same]
    exact fun prop _ => prop.members_toJson
  issues := by
    refine ⟨_, usage.issues.map Issue.toJson, rfl, by simp [member?_cons], ?_⟩
    rw [List.forall₂_map_right_iff, List.forall₂_same]
    exact fun issue _ => issue.members_toJson

/-- Usages whose numbers fit into 64 bits and whose props have scalars, if anything, as values. -/
structure Usage.Fits (usage : Usage) : Prop where
  line : FitsWord usage.line
  column : FitsWord usage.column
  values : ∀ prop ∈ usage.props, ∀ value ∈ prop.value, IsScalar value
  issueLines : ∀ issue ∈ usage.issues, ∀ line ∈ issue.line, FitsWord line
  issueColumns : ∀ issue ∈ usage.issues, ∀ column ∈ issue.column, FitsWord column

section Readable

variable (depth : Nat)

theorem isReadable_of_isScalar {json : Json} (scalar : IsScalar json) :
    IsReadable depth json := by
  cases json with
  | bool _ => cases depth <;> trivial
  | string _ => cases depth <;> trivial
  | int value => cases depth <;> exact scalar
  | _ => exact scalar.elim

theorem isReadable_string (text : String) : IsReadable depth (.string text) :=
  isReadable_of_isScalar depth trivial

theorem isReadable_bool (value : Bool) : IsReadable depth (.bool value) :=
  isReadable_of_isScalar depth trivial

theorem isReadable_nat {value : Nat} (fits : FitsWord value) :
    IsReadable depth (Json.nat value) :=
  isReadable_of_isScalar depth fits

theorem isReadable_optional {α : Type} {name : String} {value : Option α} {write : α → Json}
    (scalar : ∀ given ∈ value, IsScalar (write given)) :
    ∀ member ∈ optional name (value.map write), IsReadable depth member.2 := by
  rintro ⟨key, json⟩ member
  obtain ⟨given, isGiven, rfl⟩ := Option.map_eq_some_iff.mp (mem_optional.mp member).2
  exact isReadable_of_isScalar depth (scalar given isGiven)

theorem GivenProp.isReadable_toJson {prop : GivenProp}
    (values : ∀ value ∈ prop.value, IsScalar value) : IsReadable (depth + 1) prop.toJson := by
  have value : ∀ member ∈ optional "value" (prop.value.map id), IsReadable depth member.2 :=
    isReadable_optional depth values
  rw [Option.map_id_fun, id] at value
  refine List.forall_mem_append.mpr ⟨List.forall_mem_append.mpr ⟨?_, value⟩,
    isReadable_optional depth fun _ _ => trivial⟩
  simp [isReadable_string]

theorem Issue.isReadable_toJson {issue : Issue} (line : ∀ line ∈ issue.line, FitsWord line)
    (column : ∀ column ∈ issue.column, FitsWord column) :
    IsReadable (depth + 1) issue.toJson := by
  refine List.forall_mem_append.mpr ⟨List.forall_mem_append.mpr ⟨List.forall_mem_append.mpr
    ⟨?_, isReadable_optional depth fun _ _ => trivial⟩, isReadable_optional depth line⟩,
    isReadable_optional depth column⟩
  simp [isReadable_string]

theorem isReadable_object {members : List (String × Json)} :
    IsReadable (depth + 1) (.object members) ↔ ∀ member ∈ members, IsReadable depth member.2 :=
  .rfl

theorem isReadable_array_map {α : Type} {write : α → Json} {values : List α}
    (readable : ∀ value ∈ values, IsReadable depth (write value)) :
    IsReadable (depth + 1) (.array (values.map write)) :=
  List.forall_mem_map.mpr readable

theorem Usage.isReadable_toJson {usage : Usage} (fits : usage.Fits) :
    IsReadable (depth + 3) usage.toJson := by
  have props : IsReadable (depth + 2) (.array (usage.props.map GivenProp.toJson)) :=
    isReadable_array_map _ fun prop member =>
      GivenProp.isReadable_toJson depth (fits.values prop member)
  have patterns : IsReadable (depth + 2) (strings usage.patterns) :=
    isReadable_array_map _ fun _ _ => isReadable_string _ _
  have issues : IsReadable (depth + 2) (.array (usage.issues.map Issue.toJson)) :=
    isReadable_array_map _ fun issue member =>
      Issue.isReadable_toJson depth (fits.issueLines issue member) (fits.issueColumns issue member)
  have line := isReadable_nat (depth + 2) fits.line
  have column := isReadable_nat (depth + 2) fits.column
  rw [Usage.toJson, isReadable_object]
  simp only [List.forall_mem_cons, List.not_mem_nil, false_implies, implies_true,
    isReadable_string, isReadable_bool, line, column, props, patterns, issues, and_self]

end Readable

theorem Usage.parse?_pretty {usage : Usage} (fits : usage.Fits) :
    parse? usage.toJson.pretty.toList = some usage.toJson :=
  -- a usage takes three of the levels that may be nested
  Json.parse?_pretty (Usage.isReadable_toJson 124 fits)

/-- A usage is read back from the text that is written for it, and the text has a member for each
field that may be left out just when the field is set. -/
theorem Usage.survives_writing {usage : Usage} (fits : usage.Fits) :
    ∃ json, parse? usage.toJson.pretty.toList = some json ∧ Usage.ofJson? json = some usage ∧
      usage.Members json := by
  have notNull : ∀ prop ∈ usage.props, prop.value ≠ some .null :=
    fun prop member isNull => fits.values prop member .null isNull
  exact ⟨usage.toJson, Usage.parse?_pretty fits, Usage.ofJson?_toJson notNull,
    usage.members_toJson⟩

def variedUsage : Usage :=
  { name := "ArchbaseEdit"
    importPath := "archbase-react"
    importResolved := true
    file := "src/\"Users\".tsx"
    line := 12
    column := 4
    props := [
      ⟨"width", .number, some (.int (-40)), some true⟩,
      ⟨"label", .string, some (.string "Nome\n\u0001"), none⟩,
      ⟨"disabled", .boolean, some (.bool true), some false⟩,
      ⟨"onChange", .function, none, none⟩]
    hasDataSource := false
    generation := .unknown
    patterns := ["stateful"]
    issues := [
      ⟨.warning, "deprecated", some "use \\ instead", some 12, some 0⟩,
      ⟨.suggestion, "", none, none, none⟩] }

theorem Usage.survives_writing_varied :
    variedUsage.Fits ∧
      ∃ json, parse? variedUsage.toJson.pretty.toList = some json ∧
        Usage.ofJson? json = some variedUsage ∧ variedUsage.Members json := by
  have fits : variedUsage.Fits := by
    constructor <;> simp [variedUsage, FitsWord, IsScalar]
  exact ⟨fits, Usage.survives_writing fits⟩

end ComponentSurvey
