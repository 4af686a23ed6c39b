import ComponentSurvey.Facts.Basic
import ComponentSurvey.Library.Components

/-!
# Tagging usages

A battery of independent tests; a usage is tagged with the name of every test that it passes.
-/

namespace ComponentSurvey

structure UsageContext where
  name : String
  props : List GivenProp
  hasDataSource : Bool
  generation : Generation
  scopeHooks : List String
  wrappers : List String
  /-- Whether the document constructs a data source of the second generation. -/
  fileUsesSecond : Bool
deriving DecidableEq, Repr, Inhabited

namespace UsageContext

def prop? (context : UsageContext) (name : String) : Option GivenProp :=
  context.props.find? fun prop => prop.name = name

def hasProp (context : UsageContext) (name : String) : Bool := (context.prop? name).isSome

def usesAnyHook (context : UsageContext) (hooks : List String) : Bool :=
  hooks.any fun hook => context.scopeHooks.contains hook

def wrappedBy (context : UsageContext) (names : List String) : Bool :=
  context.wrappers.any fun wrapper => names.contains wrapper

end UsageContext

structure Predicate where
  name : String
  test : UsageContext → Bool

namespace Predicate

def errorHandlerProps : List String := ["onValidationError", "onValidationFailed", "onError"]

def formWithDataSource : Predicate where
  name := "form-with-datasource"
  test := fun context => context.name = "ArchbaseFormTemplate" && context.hasProp "dataSource"

def crudWithDataGrid : Predicate where
  name := "crud-with-datagrid"
  test := fun context =>
    context.name = "ArchbaseDataGrid" && (context.generation = .v2 || context.fileUsesSecond)

def asyncLoading : Predicate where
  name := "async-loading"
  test := fun context =>
    Text.mentions context.name.toList "Async" || context.hasProp "loading" ||
      context.hasProp "isLoading"

def validationWithFeedback : Predicate where
  name := "validation-with-feedback"
  test := fun context =>
    errorHandlerProps.any fun name =>
      (context.prop? name).any fun prop => prop.kind = .variable

def stateful : Predicate where
  name := "stateful"
  test := fun context => context.usesAnyHook ["useState", "useReducer"]

def withEffects : Predicate where
  name := "with-effects"
  test := fun context => context.usesAnyHook Library.sideEffectHooks

def memoized : Predicate where
  name := "memoized"
  test := fun context =>
    context.usesAnyHook ["useMemo", "useCallback"] || context.wrappedBy ["memo"]

def withRef : Predicate where
  name := "with-ref"
  test := fun context => context.usesAnyHook ["useRef"] || context.wrappedBy ["forwardRef"]

def dataBound : Predicate where
  name := "data-bound"
  test := fun context => context.hasProp "dataSource" && context.hasProp "dataField"

def standard : List Predicate :=
  [formWithDataSource, crudWithDataGrid, asyncLoading, validationWithFeedback, stateful,
    withEffects, memoized, withRef, dataBound]

def selected (names : List String) : List Predicate :=
  names.filterMap fun name => standard.find? fun predicate => predicate.name = name

end Predicate

/-- The names of the tests that pass, each once, in the order of the battery. -/
def tags (battery : List Predicate) (context : UsageContext) : List String :=
  battery.foldl
    (fun found predicate =>
      if predicate.test context && !found.contains predicate.name then found ++ [predicate.name]
      else found)
    []

end ComponentSurvey
