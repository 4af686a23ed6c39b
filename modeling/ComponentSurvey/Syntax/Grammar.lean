import ComponentSurvey.Syntax.Grammar.Statements

/-!
# The closed grammar

`Grammar.ofDepth` stacks levels of the open grammar.  `readProgram` uses more levels than the text
has characters, so nesting never runs out of them before the text does.
-/

namespace ComponentSurvey.Syntax

open Reader

namespace Grammar

def step (g : Grammar) : Grammar where
  operation := g.anyOperation
  typeOperation := g.anyType
  pattern := g.anyPattern
  element := g.anyElement
  statement := g.anyStatement
  declaration := g.anyDeclaration

def ofDepth (depth : Nat) : Grammar := Nat.repeat step depth empty

end Grammar

def hashBang : Reader (List Node) := do
  let first ← start
  let _ ← immediate fun text =>
    if startsWith ['#', '!'] text then splitCount (text.takeWhile fun c => c != '\n').length text
    else none
  return [.mk .hashBangLine none first (← stop) []]

def program (g : Grammar) : Reader Node := do
  let first ← optionally hashBang
  let statements ← many g.statement
  opening
  let input ← get
  if input.rest.isEmpty then
    return .mk .program none 0 input.offset (first ++ statements)
  else refuse

/-- The tree of a whole text, or nothing if the text does not parse.  No token holds a NUL. -/
def readProgram (dialect : Dialect) (text : List Char) : Option Node :=
  if text.contains '\x00' then none
  else
    let grammar := Grammar.ofDepth (4 * text.length + 8)
    match program grammar ⟨text, 0, [], dialect, false, false⟩ with
    | none => none
    | some (root, input) => some (root.withComments input.comments.reverse)

end ComponentSurvey.Syntax
