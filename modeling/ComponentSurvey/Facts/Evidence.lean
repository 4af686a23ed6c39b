import ComponentSurvey.Facts.Basic
import ComponentSurvey.Facts.Binding
import ComponentSurvey.Order.Distinct

/-!
# Evidence in a document

What a whole document says about data source generations and hooks: which factories it constructs
or calls, which methods of the second generation it calls, and which hooks.
-/

namespace ComponentSurvey

open Syntax

/-- The name of a callee, followed through import aliases; a member stands for itself. -/
def calleeName? (document : Document) (imports : Imports) (callee : Node) : Option String :=
  match callee.kind with
  | .identifier => some (imports.canonical (document.text callee))
  | .memberExpression => (callee.child? .property).map document.text
  | _ => none

def factoryGeneration? (name : String) : Option Generation :=
  if Library.firstGenerationFactories.contains name then some .v1
  else if Library.secondGenerationFactories.contains name then some .v2
  else none

def isHookName (name : List Char) : Bool :=
  match name with
  | 'u' :: 's' :: 'e' :: rest => Text.isCapitalized rest
  | _ => false

def hookName? (document : Document) (callee : Node) : Option String :=
  let named (node : Node) : Option String :=
    if isHookName (document.chars node) then some (document.text node) else none
  match callee.kind with
  | .identifier => named callee
  | .memberExpression => (callee.child? .property).bind named
  | _ => none

def invoked? (node : Node) : Option Node :=
  match node.kind with
  | .newExpression | .callExpression => node.child? .callee
  | _ => none

def invokedGeneration? (document : Document) (imports : Imports) (node : Node) :
    Option Generation :=
  ((invoked? node).bind (calleeName? document imports)).bind factoryGeneration?

def callsSecondGenerationMethod (document : Document) (node : Node) : Bool :=
  node.kind = .callExpression &&
    (node.child? .callee).any fun callee =>
      callee.kind = .memberExpression &&
        (callee.child? .property).any fun property =>
          Library.secondGenerationMethods.contains (document.text property)

def calledHook? (document : Document) (node : Node) : Option String :=
  if node.kind = .callExpression then (node.child? .callee).bind (hookName? document) else none

structure Evidence where
  imports : Imports
  firstGeneration : Bool
  secondGeneration : Bool
  hooks : List String
deriving DecidableEq, Repr

namespace Evidence

def ofDocument (document : Document) : Evidence :=
  let imports := Imports.ofDocument document
  let nodes := document.nodes
  { imports := imports
    firstGeneration := nodes.any fun node =>
      invokedGeneration? document imports node = some .v1
    secondGeneration := nodes.any fun node =>
      invokedGeneration? document imports node = some .v2 ||
        callsSecondGenerationMethod document node
    hooks := Order.distinct (nodes.filterMap (calledHook? document)) }

def generation (evidence : Evidence) : Generation :=
  .ofEvidence evidence.firstGeneration evidence.secondGeneration

end Evidence

end ComponentSurvey
