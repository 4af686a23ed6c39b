import ComponentSurvey.Facts.Props
import ComponentSurvey.Facts.Tagging
import ComponentSurvey.Facts.Tracing

/-!
# Extracting usages

Every opening or self-closing tag that names a tracked component is a usage, in the order of the
text.
-/

namespace ComponentSurvey

open Syntax

structure ResolvedTag where
  name : String
  importPath : String
  importResolved : Bool
deriving DecidableEq, Repr, Inhabited

/-- A tag imported from elsewhere is a component of the user's own.  A tag that is not imported at
all is taken for the library's. -/
def resolveTag? (document : Document) (imports : Imports) (tag : Node) : Option ResolvedTag :=
  let tracked (name path : String) (resolved : Bool) : Option ResolvedTag :=
    if Library.isTracked name then some ⟨name, path, resolved⟩ else none
  match tag.kind with
  | .identifier =>
    let localName := document.text tag
    match imports.resolve? localName with
    | none => tracked localName Library.libraryModule false
    | some binding =>
      if binding.isLibrary then tracked binding.exportedName binding.source true else none
  | .memberExpression | .nestedIdentifier => do
    let object ← tag.child? .object
    let property ← tag.child? .property
    if object.kind ≠ .identifier then none
    else
      let binding ← imports.resolve? (document.text object)
      if !binding.isLibrary || binding.isAliased then none
      else tracked (document.text property) binding.source true
  | _ => none

def scopeHooks (document : Document) (scope : Node) : List String :=
  Order.distinct (scope.preorder.filterMap (calledHook? document))

def wrappingCalls (document : Document) (imports : Imports) (site : Site) : List String :=
  site.ancestors.filterMap fun ancestor =>
    if ancestor.kind = .callExpression then
      (ancestor.child? .callee).bind (calleeName? document imports)
    else none

/-- The generation that a usage is bound to: that of the variable it is given, if that can be
traced, or else what the whole document gives evidence of. -/
def boundGeneration (document : Document) (evidence : Evidence) (props : List GivenProp) :
    Generation :=
  let traced? : Option Generation := do
    let prop ← props.find? fun (prop : GivenProp) =>
      prop.name = "dataSource" && prop.kind = .variable
    let name ← prop.value.bind Json.string?
    variableGeneration? document evidence.imports name
  traced?.getD evidence.generation

def isTag (kind : Kind) : Bool :=
  kind = .jsxOpeningElement || kind = .jsxSelfClosingElement

def usageAt? (battery : List Predicate) (document : Document) (evidence : Evidence)
    (site : Site) : Option Usage := do
  let tag ← site.node.child? .name
  let resolved ← resolveTag? document evidence.imports tag
  let placed := placedProps document resolved.name site.node
  let props := placed.map PlacedProp.prop
  let hasDataSource := props.any fun prop => Library.dataSourceProps.contains prop.name
  let generation :=
    if hasDataSource then boundGeneration document evidence props else .unknown
  let context : UsageContext :=
    { name := resolved.name
      props := props
      hasDataSource := hasDataSource
      generation := generation
      scopeHooks := (site.outermostFunction?.map (scopeHooks document)).getD []
      wrappers := wrappingCalls document evidence.imports site
      fileUsesSecond := evidence.secondGeneration }
  let (line, column) := document.position site.node
  return {
    name := resolved.name
    importPath := resolved.importPath
    importResolved := resolved.importResolved
    file := document.path
    line := line
    column := column
    props := props
    hasDataSource := hasDataSource
    generation := generation
    patterns := tags battery context
    issues := detectIssues resolved.name line column placed }

def usagesOf (battery : List Predicate) (document : Document) (evidence : Evidence) :
    List Usage :=
  (document.sites.filter fun site => isTag site.node.kind).filterMap
    (usageAt? battery document evidence)

def extractUsages (battery : List Predicate) (document : Document) : List Usage :=
  usagesOf battery document (Evidence.ofDocument document)

end ComponentSurvey
