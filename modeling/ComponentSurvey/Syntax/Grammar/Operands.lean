import ComponentSurvey.Syntax.Grammar.Classes
import ComponentSurvey.Syntax.Grammar.Markup
import ComponentSurvey.Syntax.Grammar.Patterns

/-!
# Operands

What an expression begins with: literals, names, parentheses, functions, classes, elements, and the
operators that stand before their operand.
-/

namespace ComponentSurvey.Syntax.Grammar

open Reader

/-! ## Looking ahead -/

def beginsNumber (text : List Char) : Bool :=
  match text with
  | '.' :: c :: _ => Text.isDigit c
  | c :: _ => Text.isDigit c
  | [] => false

def beginsOperand : Reader Bool := do
  let text ← ahead
  let operator := operatorAhead text
  return beginsNumber text
    || isOneOf ["(", "[", "\x7b", "<", "+", "-", "!", "~", "++", "--"] operator
    || (text.head?.any fun c => "\"'\x60/@#".toList.contains c)
    || (text.head?.any fun c => Text.isNameStart c || c = '\\') &&
      !isOneOf joiningWords (← wordAhead)

/-- Whether the word ahead has a name after it, on the same line, that is none of some words. -/
def nameFollows (ending : Ending) (others : List String) : Reader Bool := test do
  let _ ← anyWord
  if ← endsHere ending then refuse
  let next ← anyWord
  if isOneOf others next then refuse

/-! ## Objects and arrays -/

def objectMember (g : Grammar) : Reader Node := do
  let first ← start
  let modifiers ← propertyModifiers .never
  let isMethod ← methodModifiers .never
  let isPlain := !isMethod && (← stop) = first
  let name ← g.propertyName
  let optionalNode ← optionally (single optionalMarkNode)
  if (← nextIs '(') || (← nextIs '<') then
    let signature ← g.signature .never
    let body ← inRole .body (g.statementBlock .afterType)
    return .mk .methodDefinition none first (← stop)
      (modifiers ++ name.withRole .name :: optionalNode ++ signature ++ [body])
  else if !isPlain || !optionalNode.isEmpty then refuse
  else if ← operatorIs ":" then
    mark ":"
    let value ← inRole .value (g.expression .inBrackets)
    return .mk .pair none first (← stop) [name.withRole .key, value]
  else if name.kind = .propertyIdentifier then
    return name.withKind .shorthandPropertyIdentifier
  else refuse

def objectLiteral (g : Grammar) : Reader Node :=
  node .object do
    mark "\x7b"
    let members ← commaList (firstOf [g.spread .inBrackets, g.objectMember])
    mark "\x7d"
    return members

def arrayLiteral (g : Grammar) : Reader Node :=
  node .array do
    mark "["
    let item (ending : Ending) := firstOf [g.spread ending, g.expression ending]
    let items ← commaListFrom (item .inBrackets) (item .never)
    mark "]"
    return items

/-- A literal, or the pattern that the same brackets are when an assignment follows. -/
def literalOrTarget (literal pattern : Reader Node) : Reader Node := do
  let before ← get
  let found ← optional? literal
  if found.isSome && !(← operatorIs "=") then return ← found.elim refuse pure
  set before
  let target ← havingRefused found.isNone pattern
  if ← operatorIs "=" then return target else refuse

/-! ## Parentheses and templates -/

def parenthesized (g : Grammar) (ending : Ending) : Reader Node :=
  node .parenthesizedExpression do
    mark "("
    let inner ← g.commaExpression ending
    let type ← if inner.kind = .sequenceExpression then pure []
      else optionally (single (g.typeAscription .never))
    mark ")"
    return inner :: type

/-- Whether the parenthesis ahead opens with a word that modifies a parameter, as it does wherever
an operand may follow the word. -/
def opensWithModifier : Reader Bool := test do
  mark "("
  let word ← anyWord
  if !isOneOf ("override" :: accessWords) word then refuse
  if !(← beginsOperand) || (← operatorIs "/=") then refuse

/-- The parameters of a function, if they cannot be an expression or if an arrow or a colon follows
them and a whole function can be read; an expression in parentheses otherwise. -/
def parenthesizedOrArrow (g : Grammar) (ending : Ending) : Reader Node := do
  if ← opensWithModifier then return ← g.arrowFunction ending
  let before ← get
  match ← optional? (g.parenthesized .inBrackets) with
  | none => if ← arrowAhead then havingRefused true (g.arrowFunction ending) else refuse
  | some found =>
    if isOneOf ["=>", ":"] (← operator) then
      match g.arrowFunction ending before with
      | some (function, after) =>
        set after
        return function
      | none => return found
    else return found

def templateSubstitution (g : Grammar) : Reader Node :=
  node .templateSubstitution do
    let _ ← immediate fun text =>
      if startsWith ['$', '\x7b'] text then splitCount 2 text else none
    let inner ← g.commaExpression .never
    mark "\x7d"
    return [inner]

def templateString (g : Grammar) : Reader Node :=
  template .templateString true g.templateSubstitution

/-! ## Steps -/

def memberName (operator : String) : Reader Node := do
  exactly operator
  inRole .property (firstOf [named .propertyIdentifier,
    leaf .privatePropertyIdentifier scanPrivateName])

def index (g : Grammar) : Reader Node := do
  mark "["
  let index ← g.commaExpression .never
  mark "]"
  return index

def callTail (g : Grammar) : Reader (List Node) := do
  let types ← optionally (single g.typeArguments)
  return types ++ [← inRole .arguments g.arguments]

/-! ## `import` and `new` -/

/-- `import` with arguments, `import.meta`, or a member taken from `import` with `?.`. -/
def importExpression (g : Grammar) : Reader Node := do
  let first ← start
  let callee ← wordNode .importKeyword "import"
  let property : Reader Node := do
    exactly "."
    keyword "meta"
    return .mk .metaProperty none first (← stop) []
  firstOf [property,
    nodeAfter .callExpression (callee.withRole .callee) g.callTail,
    nodeAfter .memberExpression (callee.withRole .object) (single (memberName "?."))]

def isPrimary : Kind → Bool
  | .subscriptExpression | .memberExpression | .parenthesizedExpression | .identifier
  | .undefinedLiteral | .thisKeyword | .superKeyword | .number | .string | .templateString | .regex
  | .trueLiteral | .falseLiteral | .nullLiteral | .object | .array | .functionExpression
  | .arrowFunction | .generatorFunction | .classExpression | .metaProperty | .callExpression
  | .nonNullExpression => true
  | _ => false

def newExpression (g : Grammar) (ending : Ending) : Reader Node :=
  node .newExpression do
    keyword "new"
    let constructor ← inRole .callee (g.operation .construction ending)
    if !isPrimary constructor.kind then refuse
    if ← endsHere ending then return [constructor]
    let types ← if ← operatorIs "<" then single g.typeArguments else pure []
    if ← endsHere ending then return constructor :: types
    let arguments ← optionally (single (inRole .arguments g.arguments))
    return constructor :: types ++ arguments

/-- `new` before what it constructs, `new.target`, or the name `new`. -/
def newOperand (g : Grammar) (ending : Ending) : Reader Node := do
  let target : Reader Node := node .metaProperty do
    keyword "new"
    exactly "."
    keyword "target"
    return []
  let isName ← test do
    keyword "new"
    if (← endsHere ending) || !(← beginsOperand) || (← operatorIs "/=") then return () else refuse
  if operatorAhead (← afterWord) = ['.'] && !beginsNumber (← afterWord) then target
  else if isName then named .identifier
  else g.newExpression ending

/-! ## Words -/

def wordLiteral (word : List Char) : Option Kind :=
  if word = "this".toList then some .thisKeyword
  else if word = "super".toList then some .superKeyword
  else if word = "true".toList then some .trueLiteral
  else if word = "false".toList then some .falseLiteral
  else if word = "null".toList then some .nullLiteral
  else if word = "undefined".toList then some .undefinedLiteral
  else none

def yieldExpression (g : Grammar) (ending : Ending) : Reader Node :=
  node .yieldExpression do
    keyword "yield"
    if ← skipIf (exactly "*") then single (g.expression ending.inside)
    else if (← endsHere ending) || (ending.ofFollows && (← wordIs "of")) then return []
    else if ← beginsOperand then single (g.expression ending.inside)
    else return []

/-- The name and the body of a module.  The body may be left out. -/
def moduleTail (g : Grammar) (ending : Ending) : Reader (List Node) := do
  let name ← firstOf [stringLiteral, do nestedName (← named .identifier)]
  if ← endsHere ending then return [name.withRole .name]
  let body ← if ← nextIs '\x7b' then single (inRole .body (g.statementBlock .afterType))
    else pure []
  return name.withRole .name :: body

def moduleFollows (ending : Ending) (others : List String) : Reader Bool := do
  let isQuoted ← test do
    let _ ← anyWord
    if ← endsHere ending then refuse
    let _ ← stringLiteral
  return isQuoted || (← nameFollows ending others)

def namespaceExpression (g : Grammar) (ending : Ending) : Reader Node :=
  node .internalModule do
    keyword "namespace"
    g.moduleTail ending

/-- An assignment whose target is closed at the end of its block. -/
def usingAssignment (g : Grammar) (ending : Ending) : Reader Node :=
  node .assignmentExpression do
    keyword "using"
    let target ← firstOf [g.pattern, g.place, g.parenthesized .never]
    exactly "="
    return [target, ← g.expression ending.inside]

def wordOperand (g : Grammar) (ending : Ending) (word : List Char) : Reader Node := do
  let after ← afterWord
  match wordLiteral word with
  | some kind => named kind
  | none =>
    if ← opensFunction ending then g.functionExpression
    else if word = "class".toList then g.classExpression
    else if word = "import".toList then g.importExpression
    else if word = "yield".toList then g.yieldExpression ending
    else if word = "using".toList then g.usingAssignment ending
    else if startsWith "=>".toList after then g.arrowFunction ending
    else if word = "new".toList then g.newOperand ending
    else if word = "namespace".toList && (← moduleFollows ending joiningWords) then
      g.namespaceExpression ending
    else if word = "async".toList &&
        (after.head?.any fun c => c = '(' || c = '<' || Text.isNameStart c) then
      firstOf [g.arrowFunction ending, named .identifier]
    else named .identifier

/-! ## Operators before their operand -/

def prefixed (g : Grammar) (kind : Kind) (pending : Pending) (ending : Ending)
    (operator : Reader Unit) : Reader Node :=
  node kind do
    operator
    return [← g.operation pending ending]

/-- `#name in ..` asks whether an object has a private member. -/
def privateMembership (g : Grammar) (ending : Ending) : Reader Node :=
  node .binaryExpression do
    let name ← leaf .privatePropertyIdentifier scanPrivateName
    keyword "in"
    return [name, ← g.operation .relation ending]

def typeAssertion (g : Grammar) (ending : Ending) : Reader Node :=
  node .typeAssertion do
    let types ← g.typeArguments
    return [types, ← g.operation .assertion ending]

/-- Whether the angle bracket ahead can only open type parameters. -/
def opensTypeParameters : Reader Bool := test do
  mark "<"
  firstOf [keyword "const", do
    let _ ← anyWord
    firstOf [keyword "extends", do
      exactly ":"
      if !isOneOf predefinedTypes (← wordAhead) then refuse]]

/-- Whether the angle bracket ahead is before a word of a type, which names no type parameter. -/
def opensPlainType : Reader Bool := test do
  mark "<"
  let word ← anyWord
  if !isOneOf typeWords word || word = "const".toList && !(← operatorIs ">") then refuse

/-- A function with type parameters, or else an element or an assertion. -/
def angleOperand (g : Grammar) (ending : Ending) : Reader Node := do
  if ← isMarkup then
    if ← opensTypeParameters then g.arrowFunction ending
    else firstOf [g.arrowFunction ending, g.element]
  else if ← opensPlainType then g.typeAssertion ending
  else firstOf [g.arrowFunction ending, g.typeAssertion ending]

def operand (g : Grammar) (pending : Pending) (ending : Ending) : Reader Node := do
  opening
  let text ← ahead
  let word ← wordAhead
  match text.head? with
  | none => refuse
  | some '(' =>
      if pending = .place then g.parenthesized .inBrackets else g.parenthesizedOrArrow ending
  | some '\x7b' => literalOrTarget g.objectLiteral g.objectPattern
  | some '[' => literalOrTarget g.arrayLiteral g.arrayPattern
  | some '\x60' => g.templateString
  | some '/' => leaf .regex scanRegex
  | some '@' => g.classExpression
  | some '#' => g.privateMembership ending
  | some '<' => g.angleOperand ending
  | some '"' | some '\'' => stringLiteral
  | some '!' => g.prefixed .unaryExpression .unary ending (mark "!")
  | some '~' => g.prefixed .unaryExpression .unary ending (mark "~")
  | some '+' =>
    if startsWith ['+', '+'] text then
      g.prefixed .updateExpression .increment ending (mark "++")
    else g.prefixed .unaryExpression .unary ending (mark "+")
  | some '-' =>
    if startsWith ['-', '-'] text then
      g.prefixed .updateExpression .increment ending (mark "--")
    else g.prefixed .unaryExpression .unary ending (mark "-")
  | some _ =>
    if beginsNumber text then numberLiteral
    else if isOneOf ["typeof", "void", "delete"] word then
      g.prefixed .unaryExpression .unary ending (do let _ ← anyWord)
    else if word = "await".toList then
      g.prefixed .awaitExpression .awaiting ending (keyword "await")
    else g.wordOperand ending word

end ComponentSurvey.Syntax.Grammar
