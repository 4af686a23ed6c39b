import ComponentSurvey.Json.Basic

/-!
# Facts about usages

A `Usage` is one place where a tracked component is rendered, with the props it is given there and
the issues found with them.
-/

namespace ComponentSurvey

inductive Severity
  | suggestion | warning | error
deriving DecidableEq, Repr, Inhabited

namespace Severity

def label : Severity → String
  | .suggestion => "suggestion"
  | .warning => "warning"
  | .error => "error"

def ofLabel? : String → Option Severity
  | "suggestion" => some .suggestion
  | "warning" => some .warning
  | "error" => some .error
  | _ => none

end Severity

structure Issue where
  severity : Severity
  message : String
  fix : Option String
  line : Option Nat
  column : Option Nat
deriving DecidableEq, Repr, Inhabited

inductive PropKind
  | string | number | boolean | variable | function | object | array | any
deriving DecidableEq, Repr, Inhabited

namespace PropKind

def label : PropKind → String
  | .string => "string"
  | .number => "number"
  | .boolean => "boolean"
  | .variable => "variable"
  | .function => "function"
  | .object => "object"
  | .array => "array"
  | .any => "any"

def ofLabel? : String → Option PropKind
  | "string" => some .string
  | "number" => some .number
  | "boolean" => some .boolean
  | "variable" => some .variable
  | "function" => some .function
  | "object" => some .object
  | "array" => some .array
  | "any" => some .any
  | _ => none

end PropKind

structure GivenProp where
  name : String
  kind : PropKind
  value : Option Json
  isRequired : Option Bool
deriving DecidableEq, Repr, Inhabited

/-- Which generation of data sources a usage is bound to.  `mixed` stands for evidence of both. -/
inductive Generation
  | v1 | v2 | mixed | unknown
deriving DecidableEq, Repr, Inhabited

namespace Generation

def label : Generation → String
  | .v1 => "v1"
  | .v2 => "v2"
  | .mixed => "mixed"
  | .unknown => "unknown"

def ofLabel? : String → Option Generation
  | "v1" => some .v1
  | "v2" => some .v2
  | "mixed" => some .mixed
  | "unknown" => some .unknown
  | _ => none

def ofEvidence (first second : Bool) : Generation :=
  match first, second with
  | true, true => .mixed
  | true, false => .v1
  | false, true => .v2
  | false, false => .unknown

end Generation

structure Usage where
  name : String
  importPath : String
  /-- Whether the import path was read off an import rather than assumed. -/
  importResolved : Bool
  file : String
  line : Nat
  column : Nat
  props : List GivenProp
  hasDataSource : Bool
  generation : Generation
  patterns : List String
  issues : List Issue
deriving DecidableEq, Repr, Inhabited

namespace Usage

def prop? (usage : Usage) (name : String) : Option GivenProp :=
  usage.props.find? fun prop => prop.name = name

def hasPattern (usage : Usage) (pattern : String) : Bool :=
  usage.patterns.contains pattern

def issueCount (usage : Usage) (severity : Severity) : Nat :=
  usage.issues.countP fun issue => issue.severity = severity

end Usage

end ComponentSurvey
