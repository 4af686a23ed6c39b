import ComponentSurvey.Facts.Extraction
import ComponentSurvey.Library.Rating

/-!
# Observations of a file

What one document contributes to the patterns of a project: its usages, its forms, the schema
rules it writes and the layout of the page it renders, if it looks like a page.
-/

namespace ComponentSurvey

open Syntax

inductive Validation
  | yup | zod
  /-- A function given to the form itself. -/
  | custom
  | absent
deriving DecidableEq, Repr, Inhabited

namespace Validation

def label : Validation → String
  | .yup => "yup"
  | .zod => "zod"
  | .custom => "custom"
  | .absent => "none"

def ofLabel? : String → Option Validation
  | "yup" => some .yup
  | "zod" => some .zod
  | "custom" => some .custom
  | "none" => some .absent
  | _ => none

def schemaLibraries : List Validation := [.yup, .zod]

def ofModule? (source : String) : Option Validation :=
  if source = "yup" then some .yup
  else if source = "zod" || source.startsWith "zod/" then some .zod
  else none

/-- The preferred one of the schema libraries that a document imports. -/
def ofImports? (imports : Imports) : Option Validation :=
  schemaLibraries.find? fun library => (imports.sources.filterMap ofModule?).contains library

end Validation

def formTemplate : String := "ArchbaseFormTemplate"

/-- The name of a tag, followed through import aliases; a member stands for itself. -/
def tagName? (document : Document) (imports : Imports) (element : Node) : Option String :=
  (element.child? .name).bind fun tag =>
    match tag.kind with
    | .identifier => some (imports.canonical (document.text tag))
    | .memberExpression | .nestedIdentifier => (tag.child? .property).map document.text
    | _ => some (document.text tag)

def attribute? (document : Document) (child : Node) : Option (String × Option Node) :=
  if child.kind ≠ .jsxAttribute then none
  else
    match child.namedChildren with
    | [] => none
    | name :: values => some (document.text name, values.head?)

def withoutBraces (node : Node) : Node :=
  if node.kind = .jsxExpression then node.namedChildren.head?.getD node else node

structure FormOccurrence where
  fieldTypes : List String
  validation : Validation
  layout : String
  features : List String
  snippet : String
deriving DecidableEq, Repr, Inhabited

namespace FormOccurrence

def complexity (form : FormOccurrence) : Complexity := .ofForm form.fieldTypes.length

def validationProps : List String := ["validate", "validation", "validationRules", "validator"]

def layoutProps : List String := ["layout", "orientation"]

def defaultLayout : String := "vertical"

def feature? (component : String) : Option String :=
  let mentions := Text.mentions component.toList
  if mentions "FormBuilder" then some "form-builder"
  else if mentions "Wizard" then some "wizard"
  else if mentions "Step" then some "multi-step"
  else none

def innerTags (site : Site) : List Node :=
  if site.node.kind = .jsxOpeningElement then
    ((site.parent?.map Node.preorder).getD []).filter fun node =>
      isTag node.kind && node.start ≠ site.node.start
  else []

def outerTags (site : Site) : List Node :=
  site.ancestors.filterMap fun ancestor =>
    if ancestor.kind = .jsxElement then
      (ancestor.child? .openTag).filter fun opening => opening.start ≠ site.node.start
    else none

def givesFunction (entry : String × Option Node) : Bool :=
  validationProps.contains entry.1 &&
    entry.2.any fun value => (withoutBraces value).kind.isFunction

def layoutLiteral? (entry : String × Option Node) : Option Node :=
  if layoutProps.contains entry.1 then entry.2.filter fun value => value.kind = .string
  else none

/-- A schema library that the document imports is taken to validate all its forms. -/
def ofSite (document : Document) (imports : Imports) (site : Site) : FormOccurrence :=
  let names (tags : List Node) := tags.filterMap (tagName? document imports)
  let inner := names (innerTags site)
  let attributes := site.node.namedChildren.filterMap (attribute? document)
  let ownValidation := if attributes.any givesFunction then Validation.custom else .absent
  { fieldTypes := Order.textSet (inner.filterMap Library.fieldType?)
    validation := (Validation.ofImports? imports).getD ownValidation
    layout :=
      ((attributes.findSome? layoutLiteral?).map document.stringValue).getD defaultLayout
    features := Order.textSet ((inner ++ names (outerTags site)).filterMap feature?)
    snippet := document.text site.node }

end FormOccurrence

def formsOf (document : Document) (imports : Imports) : List FormOccurrence :=
  (document.sites.filter fun site =>
    isTag site.node.kind && tagName? document imports site.node = some formTemplate).map
    (FormOccurrence.ofSite document imports)

def schemaRules : List (String × String) := [
  ("required", "required"),
  ("email", "email"),
  ("min", "min-length"),
  ("max", "max-length"),
  ("matches", "regex"),
  ("regex", "regex"),
  ("string", "string"),
  ("number", "number")]

def schemaRule? (method : String) : Option String :=
  (schemaRules.find? fun entry => entry.1 = method).map Prod.snd

def chainRoot? : Nat → Node → Option Node
  | 0, _ => none
  | fuel + 1, node =>
    match node.kind with
    | .callExpression => (node.child? .callee).bind (chainRoot? fuel)
    | .memberExpression => (node.child? .object).bind (chainRoot? fuel)
    | .identifier => some node
    | _ => none

def calledRule? (document : Document) (imports : Imports) (call : Node) :
    Option (Validation × String) := do
  let callee ← call.child? .callee
  let root ← chainRoot? callee.size callee
  let binding ← imports.resolve? (document.text root)
  let library ← Validation.ofModule? binding.source
  let method ← match callee.kind with
    | .memberExpression => (callee.child? .property).map document.text
    | .identifier => some binding.exportedName
    | _ => none
  return (library, ← schemaRule? method)

def schemaRulesOf (document : Document) (imports : Imports) :
    List (Validation × List String) :=
  let called := (document.nodesOfKind .callExpression).filterMap (calledRule? document imports)
  Validation.schemaLibraries.filterMap fun library =>
    let rules := (called.filter fun entry => entry.1 = library).map Prod.snd
    if rules.isEmpty then none else some (library, Order.textSet rules)

structure PageObservation where
  layout : String
  sections : List String
  navigation : Bool
  authentication : Bool
deriving DecidableEq, Repr, Inhabited

namespace PageObservation

def sectionWords : List (String × List String) := [
  ("header", ["header"]),
  ("sidebar", ["sidebar", "navbar", "aside"]),
  ("footer", ["footer"]),
  ("main", ["main"])]

def navigationWords : List String := ["navigation", "navlink", "menu", "breadcrumb"]

def authenticationWords : List String := ["auth", "login", "session"]

def mentionsAny (words : List String) (text : List Char) : Bool :=
  words.any (Text.mentions text)

def isNavigationModule (source : String) : Bool :=
  source.startsWith "react-router" || source = "next/link"

/-- What the sections tell about the layout, or else a name. -/
def layoutOf (sections : List String) (isDashboard : Bool) : String :=
  if sections.contains "sidebar" then "sidebar"
  else if sections.contains "header" then "header"
  else if isDashboard then "dashboard"
  else "unknown"

/-- A document without any section is not a page. -/
def ofDocument? (document : Document) (imports : Imports) : Option PageObservation :=
  let elements := document.nodes.filter fun node => isTag node.kind
  let tags := (elements.filterMap (tagName? document imports)).map Text.lowerCase
  let anyTag (words : List String) : Bool := tags.any (mentionsAny words)
  let navigation :=
    tags.contains "nav".toList || anyTag navigationWords ||
      imports.bindings.any fun binding => isNavigationModule binding.source
  let sections :=
    (sectionWords.filter fun entry => anyTag entry.2).map Prod.fst ++
      if navigation then ["navigation"] else []
  let isDashboard :=
    Text.mentions (Text.lowerCase document.path) "dashboard" || anyTag ["dashboard"]
  let authentication :=
    anyTag authenticationWords ||
      imports.bindings.any fun binding =>
        mentionsAny authenticationWords (Text.lowerCase binding.localName) ||
          mentionsAny authenticationWords (Text.lowerCase binding.source)
  if sections.isEmpty then none
  else some ⟨layoutOf sections isDashboard, Order.textSet sections, navigation, authentication⟩

end PageObservation

structure FileObservation where
  file : String
  usages : List Usage
  forms : List FormOccurrence
  validation : List (Validation × List String)
  page : Option PageObservation
deriving DecidableEq, Repr, Inhabited

def FileObservation.ofDocument (document : Document) : FileObservation :=
  let imports := Imports.ofDocument document
  { file := document.path
    usages := extractUsages Predicate.standard document
    forms := formsOf document imports
    validation := schemaRulesOf document imports
    page := PageObservation.ofDocument? document imports }

end ComponentSurvey
