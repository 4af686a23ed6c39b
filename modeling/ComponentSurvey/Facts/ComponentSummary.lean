import ComponentSurvey.Facts.Extraction
import ComponentSurvey.Facts.Json
import ComponentSurvey.Library.Rating

/-!
# Summary of a component file

Everything that one document tells by itself: the component it declares, the props it declares,
its imports, hooks, data sources and usages.
-/

namespace ComponentSurvey

open Syntax

structure DeclaredProp where
  name : String
  typeText : String
  required : Bool
deriving DecidableEq, Repr, Inhabited

structure DataSourceUsage where
  hasDataSource : Bool
  generation : Generation
  fields : List String
deriving DecidableEq, Repr, Inhabited

structure ComponentSummary where
  name : Option String
  file : String
  props : List DeclaredProp
  imports : List Binding
  dataSource : DataSourceUsage
  complexity : Complexity
  hooks : List String
  dependencies : List String
  usages : List Usage
deriving DecidableEq, Repr, Inhabited

/-- The component that a node declares: a capitalised function, or a capitalised variable whose
value is a function or a call that is given one. -/
def declaredComponentAt? (document : Document) (node : Node) : Option String :=
  let declaringName? : Option Node :=
    match node.kind with
    | .functionDeclaration => node.child? .name
    | .variableDeclarator => do
      let value ← node.child? .value
      let isComponent := value.kind.isFunction ||
        (value.kind = .callExpression && !(value.descendantsOfKind .arrowFunction).isEmpty)
      if isComponent then node.child? .name else none
    | _ => none
  declaringName?.bind fun name =>
    if name.kind = .identifier && Text.isCapitalized (document.chars name) then
      some (document.text name)
    else none

def declaredComponent? (document : Document) : Option String :=
  document.nodes.findSome? (declaredComponentAt? document)

def declaredPropAt? (document : Document) (member : Node) : Option DeclaredProp :=
  if member.kind ≠ .propertySignature then none
  else
    (member.child? .name).map fun name =>
      let type := member.children.find? fun child => child.kind = .typeAscription
      let typeText := type.map fun type =>
        String.ofList (Text.trimBoth Text.isBlank
          ((document.chars type).dropWhile fun c => c = ':'))
      ⟨document.stringValue name, typeText.getD "unknown",
        !(member.children.any fun child => child.kind = .optionalMark)⟩

def declaredProps (document : Document) : List DeclaredProp :=
  document.nodes.flatMap fun node =>
    let body? :=
      match node.kind with
      | .interfaceDeclaration => node.child? .body
      | .typeAliasDeclaration => node.child? .value
      | _ => none
    let speaksOfProps := (node.child? .name).any fun name =>
      Text.mentions (document.chars name) "Props"
    match body? with
    | some body =>
      if speaksOfProps then body.namedChildren.filterMap (declaredPropAt? document) else []
    | none => []

def combinedGeneration (usages : List Usage) (evidence : Evidence) : Generation :=
  let found := evidence.generation ::
    (usages.filter fun usage => usage.hasDataSource).map Usage.generation
  .ofEvidence (found.contains .mixed || found.contains .v1)
    (found.contains .mixed || found.contains .v2)

def dataFields (usages : List Usage) : List String :=
  Order.distinct (usages.filterMap fun usage =>
    ((usage.prop? "dataField").bind GivenProp.value).bind Json.string?)

namespace ComponentSummary

def ofDocument (battery : List Predicate) (document : Document) : ComponentSummary :=
  let evidence := Evidence.ofDocument document
  let usages := usagesOf battery document evidence
  let libraryBindings := evidence.imports.bindings.filter Binding.isLibrary
  { name := declaredComponent? document
    file := document.path
    props := declaredProps document
    imports := evidence.imports.bindings
    dataSource :=
      { hasDataSource := (usages.any fun usage => usage.hasDataSource) ||
          evidence.firstGeneration || evidence.secondGeneration
        generation := combinedGeneration usages evidence
        fields := dataFields usages }
    complexity := Complexity.ofFile evidence.hooks.length usages.length
      (evidence.hooks.any fun hook => Library.sideEffectHooks.contains hook)
    hooks := evidence.hooks
    dependencies := Order.distinct (libraryBindings.map Binding.exportedName)
    usages := usages }

def toJson (summary : ComponentSummary) : Json :=
  .object [
    ("name", Json.orNull (summary.name.map .string)),
    ("file", .string summary.file),
    ("props", .array (summary.props.map fun prop =>
      .object [("name", .string prop.name), ("type", .string prop.typeText),
        ("required", .bool prop.required)])),
    ("imports", .array (summary.imports.map Binding.toJson)),
    ("dataSourceUsage", .object [
      ("hasDataSource", .bool summary.dataSource.hasDataSource),
      ("version", .string summary.dataSource.generation.label),
      ("fields", Json.strings summary.dataSource.fields)]),
    ("complexity", .string summary.complexity.label),
    ("hooks", Json.strings summary.hooks),
    ("dependencies", Json.strings summary.dependencies),
    ("usages", .array (summary.usages.map Usage.toJson))]

end ComponentSummary

end ComponentSurvey
