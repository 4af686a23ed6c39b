import ComponentSurvey.Syntax.Grammar.Types

/-!
# Blocks and functions

Braces open a block or an object; their first member decides which of the two is tried first.
-/

namespace ComponentSurvey.Syntax.Grammar

open Reader

/-- Words that begin a statement, so that they neither name a first member nor label anything. -/
def statementWords : List String := [
  "typeof", "import", "var", "const", "if", "switch", "for", "await", "while", "do", "try", "with",
  "break", "continue", "debugger", "return", "throw", "yield", "class", "function", "using", "void",
  "delete", "this", "super", "true", "false", "null", "undefined", "abstract", "interface", "enum"]

def blockStatements (g : Grammar) : Reader (List Node) := do
  mark "\x7b"
  let statements ← many g.statement
  opening
  mark "\x7d"
  return statements

/-- A block takes the comments on the line of its closing brace if the line ends there. -/
def statementBlock (g : Grammar) (ending : Ending) : Reader Node :=
  node .statementBlock do
    let statements ← g.blockStatements
    closedLine ending
    return statements

/-- Whether the braces ahead may open an object: their first member is no statement, neither a comma
nor the closing brace nor a condition follows a mere name, and it is not an assignment alone. -/
def mayOpenObject (g : Grammar) : Reader Bool := do
  let isMember ← test do
    mark "\x7b"
    if isOneOf ["(", "\x7b", "\x7d"] (← operator) then refuse
    let word ← wordAhead
    if isOneOf statementWords word then refuse
    let after ← afterWord
    let endsName := asksCondition after || isOneOf [",", "\x7d"] (operatorAhead after)
    if !word.isEmpty && endsName then refuse
  let isAssignment : Reader Unit := do
    mark "\x7b"
    let _ ← if ← nextIs '[' then g.pattern else named .identifier
    exactly "="
    let _ ← g.expression .never
    mark "\x7d"
  return isMember && !(← test isAssignment)

def opensWithCall (g : Grammar) : Reader Bool := test do
  mark "\x7b"
  let _ ← g.propertyName
  mark "("
  if ← nextIs ')' then refuse

/-- Braces as an object where they can be one, and as a block otherwise. -/
def objectOrBlock (g : Grammar) (object block : Reader Node) : Reader Node := do
  if !(← g.mayOpenObject) then block
  else if ← g.opensWithCall then firstOf [block, havingRefused true object]
  else firstOf [object, block]

/-- Empty braces are an object only where something is assigned to them. -/
def arrowBody (g : Grammar) (ending : Ending) : Reader Node := do
  let expression := g.expression ending.inside
  let isTarget ← test do
    mark "\x7b"
    mark "\x7d"
    exactly "="
  if (← nextIs '\x7b') && !isTarget then
    g.objectOrBlock expression (g.statementBlock .afterExpression)
  else expression

/-- Where a colon follows the function, the first colon is that one. -/
def arrowParameters (g : Grammar) (ending : Ending) : Reader (List Node) := do
  let types ← optionally (single g.typeParameters)
  let parameters ← g.formalParameters
  if ending.colonFollows then return types ++ [parameters]
  let result ← optionally (single (g.resultAscription .beforeArrow))
  return types ++ parameters :: result

/-- A function written with an arrow.  `async` and the arrow decide that it is one. -/
def arrowFunction (g : Grammar) (ending : Ending) : Reader Node :=
  node .arrowFunction do
    if (← wordIs "async") && !startsWith "=>".toList (← afterWord) then
      keyword "async"
      if (← endsHere ending) || isOneOf joiningWords (← wordAhead) then refuse
    let parameters ←
      if (← wordAhead).isEmpty then g.arrowParameters ending
      else single (named .identifier)
    exactly "=>"
    return parameters ++ [(← havingRefused false (g.arrowBody ending)).withRole .body]

def functionHead : Reader (Bool × List Node) := do
  let _ ← skipIf (keyword "async")
  keyword "function"
  let isGenerator ← skipIf (mark "*")
  let name ← optionally (single (inRole .name (named .identifier)))
  return (isGenerator, name)

def functionExpression (g : Grammar) : Reader Node := do
  let first ← start
  let (isGenerator, name) ← functionHead
  let signature ← g.signature .never
  let body ← inRole .body (g.statementBlock .afterExpression)
  let kind := if isGenerator then Kind.generatorFunction else Kind.functionExpression
  return .mk kind none first (← stop) (name ++ signature ++ [body])

def opensFunction (ending : Ending) : Reader Bool := test do
  if ← wordIs "async" then
    keyword "async"
    if ← endsHere ending then refuse
  keyword "function"

end ComponentSurvey.Syntax.Grammar
