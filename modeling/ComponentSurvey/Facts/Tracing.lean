import ComponentSurvey.Facts.Evidence

/-!
# Tracing a data source to its declaration

The generation of a variable is that of the first declaration in the document that binds its name
and whose initial value leads to a factory.
-/

namespace ComponentSurvey

open Syntax

def wrappingHooks : List String := ["useMemo", "useState", "useRef", "useCallback"]

def traceDepth : Nat := 4

def bindsName (document : Document) (pattern : Node) (name : String) : Bool :=
  pattern.preorder.any fun node =>
    (node.kind = .identifier || node.kind = .shorthandPropertyIdentifierPattern) &&
      document.text node = name

/-- The generation that an initial value leads to, through at most `fuel` expressions. -/
def initialGeneration? (document : Document) (imports : Imports) : Nat → Node → Option Generation
  | 0, _ => none
  | fuel + 1, value =>
    match value.kind with
    | .awaitExpression | .parenthesizedExpression | .asExpression | .nonNullExpression
    | .satisfiesExpression =>
      value.namedChildren.head?.bind (initialGeneration? document imports fuel)
    | .newExpression => invokedGeneration? document imports value
    | .callExpression => do
      let name ← (value.child? .callee).bind (calleeName? document imports)
      match factoryGeneration? name with
      | some generation => some generation
      | none =>
        if !wrappingHooks.contains name then none
        else
          let first ← (value.child? .arguments).bind fun arguments => arguments.namedChildren.head?
          if first.kind.isFunction then
            let body ← first.child? .body
            if body.kind = .statementBlock then
              (body.preorder.filter fun node =>
                node.kind = .newExpression || node.kind = .callExpression).findSome?
                  (initialGeneration? document imports fuel)
            else initialGeneration? document imports fuel body
          else initialGeneration? document imports fuel first
    | _ => none

def variableGeneration? (document : Document) (imports : Imports) (name : String) :
    Option Generation :=
  ((document.nodesOfKind .variableDeclarator).filter fun declarator =>
    (declarator.child? .name).any fun pattern => bindsName document pattern name).findSome?
      fun declarator =>
        (declarator.child? .value).bind (initialGeneration? document imports (traceDepth + 1))

end ComponentSurvey
