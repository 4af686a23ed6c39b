import ComponentSurvey.Library.Components
import ComponentSurvey.Order.Distinct
import ComponentSurvey.Syntax.Document
import ComponentSurvey.Json.Basic

/-!
# Import bindings

The names that a document takes from other modules, by import statements or by `require` with a
literal path.  A local name stands for the first binding that introduces it.
-/

namespace ComponentSurvey

open Syntax

def defaultImport : String := "default"

def namespaceImport : String := "*"

structure Binding where
  localName : String
  imported : String
  source : String
  line : Nat
deriving DecidableEq, Repr, Inhabited

namespace Binding

def isLibrary (binding : Binding) : Bool := Library.isLibraryModule binding.source

def isNamespace (binding : Binding) : Bool := binding.imported = namespaceImport

/-- The name under which the module exports the binding; defaults and whole modules have none and
keep the local one. -/
def exportedName (binding : Binding) : String :=
  if binding.imported = defaultImport || binding.isNamespace then binding.localName
  else binding.imported

def isAliased (binding : Binding) : Bool := binding.exportedName ≠ binding.localName

def toJson (binding : Binding) : Json :=
  .object [("local", .string binding.localName), ("imported", .string binding.imported),
    ("source", .string binding.source), ("line", Json.nat binding.line)]

end Binding

def specifierBinding? (document : Document) (source : String) (line : Nat) (specifier : Node) :
    Option Binding :=
  if specifier.kind ≠ .importSpecifier then none
  else
    (specifier.child? .name).map fun name =>
      let imported := document.stringValue name
      let localName := ((specifier.child? .otherName).map document.text).getD imported
      ⟨localName, imported, source, line⟩

def clausePartBindings (document : Document) (source : String) (line : Nat) (part : Node) :
    List Binding :=
  match part.kind with
  | .identifier => [⟨document.text part, defaultImport, source, line⟩]
  | .namespaceImport =>
    ((part.namedChildren.find? fun child => child.kind = .identifier).map fun name =>
      ⟨document.text name, namespaceImport, source, line⟩).toList
  | .namedImports => part.namedChildren.filterMap (specifierBinding? document source line)
  | _ => []

def importBindings (document : Document) (statement : Node) : List Binding :=
  match statement.child? .source with
  | none => []
  | some source =>
    let clauses := statement.namedChildren.filter fun child => child.kind = .importClause
    clauses.flatMap fun clause => clause.namedChildren.flatMap
      (clausePartBindings document (document.stringValue source) (document.line statement))

def requiredModule? (document : Document) (value : Node) : Option String := do
  if value.kind ≠ .callExpression then none
  else
    let callee ← value.child? .callee
    if callee.kind ≠ .identifier || document.text callee ≠ "require" then none
    else
      let arguments ← value.child? .arguments
      let first ← arguments.namedChildren.head?
      if first.kind = .string then some (document.stringValue first) else none

def patternBinding? (document : Document) (source : String) (line : Nat) (property : Node) :
    Option Binding :=
  match property.kind with
  | .shorthandPropertyIdentifierPattern =>
    let name := document.text property
    some ⟨name, name, source, line⟩
  | .pairPattern => do
    let key ← property.child? .key
    let value ← property.child? .value
    if value.kind = .identifier then
      some ⟨document.text value, document.stringValue key, source, line⟩
    else none
  | _ => none

def declaratorBindings (document : Document) (declarator : Node) : List Binding :=
  match declarator.child? .name, (declarator.child? .value).bind (requiredModule? document) with
  | some name, some source =>
    let line := document.line declarator
    match name.kind with
    | .identifier => [⟨document.text name, namespaceImport, source, line⟩]
    | .objectPattern => name.namedChildren.filterMap (patternBinding? document source line)
    | _ => []
  | _, _ => []

structure Imports where
  bindings : List Binding
deriving DecidableEq, Repr, Inhabited

namespace Imports

def ofDocument (document : Document) : Imports :=
  ⟨document.nodes.flatMap fun node =>
    match node.kind with
    | .importStatement => importBindings document node
    | .variableDeclarator => declaratorBindings document node
    | _ => []⟩

def resolve? (imports : Imports) (localName : String) : Option Binding :=
  imports.bindings.find? fun binding => binding.localName = localName

/-- The exported name behind a local one; a name that is not imported stands for itself. -/
def canonical (imports : Imports) (localName : String) : String :=
  ((imports.resolve? localName).map Binding.exportedName).getD localName

def importsModule (imports : Imports) (source : String) : Bool :=
  imports.bindings.any fun binding => binding.source = source

/-- The imported modules, each once, in the order of the text. -/
def sources (imports : Imports) : List String :=
  Order.distinct (imports.bindings.map Binding.source)

end Imports

end ComponentSurvey
