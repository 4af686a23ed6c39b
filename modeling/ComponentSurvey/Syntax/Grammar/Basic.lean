import ComponentSurvey.Syntax.Reader

/-!
# The open grammar

Every production is an ordinary definition over a `Grammar`, the readers of the next lower level.
`Grammar.ofDepth` closes the recursion: a level can be entered once per nesting step, and a text
nests no deeper than it is long.
-/

namespace ComponentSurvey.Syntax

open Reader

/-- What stands to the left of an operand and has not been completed: nothing, the word `extends`
of a class, an operator, the word `new`, or what opens a place that a value is put into. -/
inductive Pending
  | nothing | heritage
  | nullish | or | and | bitOr | bitXor | bitAnd | equality | relation | shift | sum | product
  | power | unary | awaiting | increment | assertion | construction | place
deriving DecidableEq, Repr, Inhabited

namespace Pending

/-- How tightly what waits holds its operand. -/
def strength : Pending → Nat
  | .nothing | .heritage => 0
  | .nullish => 1
  | .or => 2
  | .and => 3
  | .bitOr => 4
  | .bitXor => 5
  | .bitAnd => 6
  | .equality => 7
  | .relation => 8
  | .shift => 9
  | .sum => 10
  | .product => 11
  | .power => 12
  | .unary | .awaiting | .increment | .assertion => 13
  | .construction | .place => 14

/-- Whether an operand lets a binary operator take it first.  Equal operators group to the left,
powers to the right. -/
def yieldsTo (pending operator : Pending) : Bool :=
  pending.strength < operator.strength || (pending = .power && operator = .power)

def isLoose : Pending → Bool
  | .nothing | .heritage => true
  | _ => false

/-- Whether `!`, `as` and `satisfies` belong to the operand rather than to all that was read.  What
`new` constructs has to be complete in itself. -/
def yieldsToCasts (pending : Pending) (isComplete : Bool) : Bool :=
  match pending with
  | .nothing | .heritage | .power | .awaiting | .place => true
  | .construction => !isComplete
  | _ => false

def yieldsToAngle (pending : Pending) : Bool :=
  pending.strength ≤ Pending.relation.strength || pending = .assertion

def yieldsToStep : Pending → Bool
  | .increment | .assertion | .construction | .place => false
  | _ => true

def yieldsToAssignment : Pending → Bool
  | .construction | .place => false
  | _ => true

/-- Whether arguments in parentheses belong to the operand.  What `new` constructs ends before
them once it is complete in itself. -/
def yieldsToCall (pending : Pending) (isComplete : Bool) : Bool :=
  pending ≠ .construction || !isComplete

end Pending

inductive PendingType
  | nothing | union | tight
deriving DecidableEq, Repr, Inhabited

namespace PendingType

def yieldsToIntersection : PendingType → Bool
  | .tight => false
  | _ => true

def yieldsToUnion : PendingType → Bool
  | .nothing => true
  | _ => false

end PendingType

structure Grammar where
  operation : Pending → Ending → Reader Node
  typeOperation : PendingType → Ending → Reader Node
  pattern : Reader Node
  element : Reader Node
  statement : Reader Node
  declaration : Ending → Reader Node
deriving Inhabited

namespace Grammar

def empty : Grammar where
  operation := fun _ _ => refuse
  typeOperation := fun _ _ => refuse
  pattern := refuse
  element := refuse
  statement := refuse
  declaration := fun _ => refuse

def expression (g : Grammar) (ending : Ending) : Reader Node := g.operation .nothing ending

def type (g : Grammar) (ending : Ending) : Reader Node := g.typeOperation .nothing ending

def isOneOf (words : List String) (word : List Char) : Bool :=
  words.any fun known => known.toList = word

def joiningWords : List String := ["in", "instanceof", "as", "satisfies"]

def isAssignable (kind : Kind) : Bool :=
  match kind with
  | .identifier | .undefinedLiteral | .memberExpression | .subscriptExpression
  | .nonNullExpression | .parenthesizedExpression | .objectPattern | .arrayPattern => true
  | _ => false

/-- The text of a template up to its next hole or its end.  Templates of types know no escapes. -/
def templateTextLength (escapes : Bool) : Nat → List Char → Option Nat
  | 0, _ => none
  | fuel + 1, text =>
    match text with
    | [] => none
    | '\x60' :: _ => some 0
    | '$' :: '\x7b' :: _ => some 0
    | '\\' :: rest =>
      if escapes then do
        let count ← escapeLength rest
        let after ← templateTextLength escapes fuel (rest.drop count)
        return after + count + 1
      else none
    | _ :: rest => (templateTextLength escapes fuel rest).map (· + 1)

def scanTemplateText (escapes : Bool) (text : List Char) : Match :=
  match templateTextLength escapes (text.length + 1) text with
  | none => none
  | some count => some (text.take count, text.drop count)

/-- A template between backquotes; `hole` reads from `$` and a brace to the closing brace. -/
def template (kind : Kind) (escapes : Bool) (hole : Reader Node) : Reader Node :=
  node kind do
    mark "\x60"
    let _ ← immediate (scanTemplateText escapes)
    let holes ← many do
      let hole ← hole
      let _ ← immediate (scanTemplateText escapes)
      return hole
    let _ ← immediate fun text => if startsWith ['\x60'] text then splitCount 1 text else none
    return holes

def stringLiteral : Reader Node := leaf .string scanString

def numberLiteral : Reader Node := leaf .number scanNumber

def computedName (g : Grammar) : Reader Node :=
  node .computedPropertyName do
    mark "["
    let inner ← g.expression .never
    mark "]"
    return [inner]

def propertyName (g : Grammar) : Reader Node :=
  firstOf [named .propertyIdentifier, stringLiteral, numberLiteral, g.computedName,
    leaf .privatePropertyIdentifier scanPrivateName]

def beginsPropertyName (text : List Char) : Bool :=
  match text with
  | [] => false
  | '.' :: c :: _ => Text.isDigit c
  | c :: _ => Text.isNameStart c || Text.isDigit c || "\"'[#\\".toList.contains c

/-- Reads a word that qualifies the member name after it.  A word at the end of a line is a name
itself where members end with lines. -/
def modifier (ending : Ending) (word : String) : Reader Bool :=
  skipIf do
    keyword word
    if ← endsHere ending then refuse
    let text ← ahead
    let mayStar := word ≠ "get" && word ≠ "set" && text.head? = some '*'
    if !(beginsPropertyName text || mayStar) then refuse

def modifierNode (kind : Kind) (ending : Ending) (words : List String) : Reader (List Node) := do
  let first ← start
  let found ← words.findM? (modifier ending)
  if found.isSome then return [.mk kind none first (← stop) []] else return []

/-- The modifiers that a method and a property may share, in their fixed order. -/
def propertyModifiers (ending : Ending) : Reader (List Node) := do
  let access ← modifierNode .accessibilityModifier ending ["public", "private", "protected"]
  let _ ← modifier ending "static"
  let override ← modifierNode .overrideModifier ending ["override"]
  let _ ← modifier ending "readonly"
  return access ++ override

/-- The modifiers that only a method has: `async`, and an accessor word or a star.  Answers whether
there was any. -/
def methodModifiers (ending : Ending) : Reader Bool := do
  let isAsync ← modifier ending "async"
  if ← skipIf (mark "*") then return true
  if ← modifier ending "get" then return true
  return (← modifier ending "set") || isAsync

def optionalMarkNode : Reader Node := do
  let first ← start
  mark "?"
  return .mk .optionalMark none first (← stop) []

def initializer (g : Grammar) (ending : Ending) : Reader Node := do
  exactly "="
  inRole .value (g.expression ending)

def spread (g : Grammar) (ending : Ending) : Reader Node :=
  node .spreadElement do
    mark "..."
    return [← g.expression ending]

def arguments (g : Grammar) : Reader Node :=
  node .arguments do
    mark "("
    let items ← commaList (firstOf [g.spread .never, g.expression .never])
    mark ")"
    return items

/-- A dotted name; only its first part refers to a binding. -/
def nestedName (first : Node) : Reader Node := do
  let parts ← manyAfter (exactly ".") (inRole .property (named .propertyIdentifier))
  return parts.foldl
    (fun path part =>
      .mk .nestedIdentifier none first.start part.stop
        [(if path.kind = .nestedIdentifier then path.withKind .memberExpression
          else path).withRole .object, part])
    first

end Grammar

end ComponentSurvey.Syntax
