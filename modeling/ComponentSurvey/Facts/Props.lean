import ComponentSurvey.Facts.Basic
import ComponentSurvey.Library.Components
import ComponentSurvey.Number.Binary64
import ComponentSurvey.Syntax.Document

/-!
# Props of an element and their issues
-/

namespace ComponentSurvey

open Syntax

def largestInt : Nat := 9223372036854775807

/-- A number as written: digits alone are an integer if it fits in 64 bits, anything else is a
binary fraction if it reads as a finite one. -/
def numberValue? (text : List Char) : Option Json :=
  let asInteger : Option Json :=
    if !text.isEmpty && text.all Text.isDigit then
      let value := Binary64.digitsValue text
      if value ≤ largestInt then some (.int value) else none
    else none
  match asInteger with
  | some value => some value
  | none => (Binary64.ofText? text).map .float

/-- Kind and value of an expression; parentheses are looked through. -/
def inferExpression (document : Document) : Nat → Node → PropKind × Option Json
  | 0, _ => (.any, none)
  | fuel + 1, expression =>
    match expression.kind with
    | .string | .templateString =>
      (.string, some (.string (document.stringValue expression)))
    | .number => (.number, numberValue? (document.chars expression))
    | .trueLiteral => (.boolean, some (.bool true))
    | .falseLiteral => (.boolean, some (.bool false))
    | .identifier => (.variable, some (.string (document.text expression)))
    | .arrowFunction | .functionExpression => (.function, none)
    | .object => (.object, none)
    | .array => (.array, none)
    | .parenthesizedExpression =>
      match expression.namedChildren.head? with
      | none => (.any, none)
      | some inner => inferExpression document fuel inner
    | _ => (.any, none)

/-- Kind and value of what an attribute is given; an attribute alone means true. -/
def inferAttribute (document : Document) (value : Option Node) : PropKind × Option Json :=
  match value with
  | none => (.boolean, some (.bool true))
  | some value =>
    match value.kind with
    | .string => (.string, some (.string (document.stringValue value)))
    | .jsxExpression =>
      match value.namedChildren.head? with
      | none => (.any, none)
      | some expression => inferExpression document expression.size expression
    | _ => (.any, none)

structure PlacedProp where
  prop : GivenProp
  line : Nat
  column : Nat
deriving DecidableEq, Repr, Inhabited

def placedProp? (document : Document) (component : String) (child : Node) : Option PlacedProp :=
  if child.kind ≠ .jsxAttribute then none
  else
    match child.namedChildren with
    | [] => none
    | nameNode :: values =>
      let (kind, value) := inferAttribute document values.head?
      let name := document.text nameNode
      let isRequired := if Library.isRequiredProp component name then some true else none
      let (line, column) := document.position child
      some ⟨⟨name, kind, value, isRequired⟩, line, column⟩

def placedProps (document : Document) (component : String) (element : Node) : List PlacedProp :=
  element.namedChildren.filterMap (placedProp? document component)

def findProp? (props : List PlacedProp) (name : String) : Option PlacedProp :=
  props.find? fun placed => placed.prop.name = name

/-- One error per required prop that is missing, placed at the element; one warning per deprecated
and one suggestion per replaceable prop, placed at its first attribute. -/
def detectIssues (component : String) (line column : Nat) (props : List PlacedProp) :
    List Issue :=
  match Library.rulesFor? component with
  | none => []
  | some rules =>
    let missing := rules.required.filterMap fun required =>
      match findProp? props required with
      | some _ => none
      | none =>
        some ⟨.error, s!"Missing required prop: {required}",
          some s!"Add {required} prop to {component}", some line, some column⟩
    let deprecated := rules.deprecated.filterMap fun entry =>
      (findProp? props entry.1).map fun placed =>
        ⟨.warning, s!"Deprecated prop {entry.1}: {entry.2}",
          some s!"Remove {entry.1} from {component}", some placed.line, some placed.column⟩
    let replaced := rules.replaced.filterMap fun entry =>
      (findProp? props entry.1).map fun placed =>
        ⟨.suggestion, s!"Prop {entry.1} can be replaced by {entry.2}",
          some s!"Rename {entry.1} to {entry.2}", some placed.line, some placed.column⟩
    missing ++ deprecated ++ replaced

end ComponentSurvey
