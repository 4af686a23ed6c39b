import ComponentSurvey.Syntax.Grammar.Basic

/-!
# Patterns

What stands to the left of an assignment, in a declaration or in a parameter list: a name, a place
that an expression leads to, or brackets around more of them.
-/

namespace ComponentSurvey.Syntax.Grammar

open Reader

def withDefault (g : Grammar) (target : Reader Node) : Reader Node := do
  let left ← target
  if ← operatorIs "=" then
    nodeAfter .assignmentPattern left do
      mark "="
      return [← g.expression .never]
  else return left

def restTarget (g : Grammar) : Reader Node :=
  node .restPattern do
    mark "..."
    return [← g.pattern]

def arrayPattern (g : Grammar) : Reader Node :=
  node .arrayPattern do
    mark "["
    let items ← commaList
      (firstOf [g.restTarget, g.withDefault g.pattern])
    mark "]"
    return items

/-- A member of a braced pattern.  A nested pattern with a default value needs no key. -/
def propertyPattern (g : Grammar) : Reader Node := do
  let first ← start
  let nested : Reader Node := do
    let left ← g.pattern
    if left.kind ≠ .objectPattern && left.kind ≠ .arrayPattern then refuse
    nodeAfter .objectAssignmentPattern left do
      exactly "="
      return [← g.expression .never]
  let keyed : Reader Node := do
    let key ← g.propertyName
    exactly ":"
    let value ← inRole .value
      (firstOf [g.restTarget, g.withDefault g.pattern])
    return .mk .pairPattern none first (← stop) [key.withRole .key, value]
  let short : Reader Node := do
    let key ← named .shorthandPropertyIdentifierPattern
    if ← operatorIs "=" then
      nodeAfter .objectAssignmentPattern key do
        mark "="
        return [← g.expression .never]
    else return key
  firstOf [keyed, short, nested]

def objectPattern (g : Grammar) : Reader Node :=
  node .objectPattern do
    mark "\x7b"
    let items ← commaList (firstOf [g.restTarget, g.propertyPattern])
    mark "\x7d"
    return items

def destructuring (g : Grammar) : Reader Node := do
  match (← ahead).head? with
  | some '\x7b' => g.objectPattern
  | some '[' => g.arrayPattern
  | _ => refuse

def bindingTarget (g : Grammar) : Reader Node :=
  firstOf [g.destructuring, named .identifier]

/-- Whether a place may begin here: with a name, a literal or a parenthesis, but not with a word
that begins a function or a class. -/
def beginsPlace : Reader Bool := do
  let text ← ahead
  let word ← wordAhead
  if word.isEmpty then
    let mayEnclose := !(← get).refused
    return mayEnclose && text.head?.any fun c =>
      "(\"'\x60/".toList.contains c || Text.isDigit c || c = '.'
  let after ← afterWord
  let isFunction := startsWith "=>".toList after || isOneOf ["function", "class"] word ||
    word = "async".toList && after.head?.any fun c => c = '(' || c = '<' || Text.isNameStart c
  return !isFunction

def place (g : Grammar) : Reader Node := do
  let place ← g.operation .place .never
  if isAssignable place.kind && place.kind ≠ .parenthesizedExpression then return place
  else refuse

/-- Whether the pattern just read is only the beginning of a place. -/
def placeContinues : Reader Bool := do
  let operator ← operator
  return isOneOf [".", "?.", "[", "(", "!"] operator

def anyPattern (g : Grammar) : Reader Node := do
  if (← nextIs '\x7b') || (← nextIs '[') then
    let before ← get
    let pattern ← g.destructuring
    if ← placeContinues then
      set before
      g.place
    else return pattern
  else if ← beginsPlace then g.place
  else refuse

end ComponentSurvey.Syntax.Grammar
