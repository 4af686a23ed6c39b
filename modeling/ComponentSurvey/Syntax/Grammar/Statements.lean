import ComponentSurvey.Syntax.Grammar.Modules

/-!
# Statements

Declarations and control flow.  The word that begins a statement and what follows it decide which
form is read; words that are also names fall back to an expression.
-/

namespace ComponentSurvey.Syntax.Grammar

open Reader

/-! ## Looking ahead -/

/-- Marks that only continue an expression and begin none. -/
def joiningMarks : List String := [
  ".", "?.", ",", "?", "=", "&&", "||", "??", "==", "===", "!=", "!==", ">", ">=", "<=", "<<", ">>",
  ">>>", "*", "%", "**", "&", "|", "^"]

/-- Whether what was just read can only be the beginning of an expression. -/
def expressionContinues : Reader Bool := do
  if ← endsHere .afterExpression then return false
  let text ← ahead
  let joins := isOneOf joiningMarks (operatorAhead text) && !beginsNumber text
  return joins || isOneOf joiningWords (← wordAhead)

/-- A declaration, unless it proves to be the beginning of an expression. -/
def unlessContinued (declaration expression : Reader Node) : Reader Node := do
  let before ← get
  let found ← declaration
  if ← expressionContinues then
    set before
    expression
  else return found

/-- Whether the statement ends right after the word ahead, which is then a mere name. -/
def wordEnds : Reader Bool := test do
  let _ ← anyWord
  if !(← endsHere .afterExpression) then refuse

/-! ## Variables, functions and classes -/

def variableDeclarator (g : Grammar) : Reader Node :=
  let certain : Reader (List Node) := do
    let name ← inRole .name (named .identifier)
    if ← endsHere .afterType then refuse
    exactly "!"
    return [name, ← g.typeAscription .afterType]
  let plain : Reader (List Node) := do
    let name ← inRole .name g.bindingTarget
    let type ← optionally (single (g.typeAscription .afterType))
    let value ← optionally (single (g.initializer .afterExpression))
    return name :: type ++ value
  node .variableDeclarator (firstOf [certain, plain])

def variableDeclaration (g : Grammar) : Reader Node := do
  let isVar ← wordIs "var"
  node (if isVar then .variableDeclaration else .lexicalDeclaration) do
    let _ ← anyWord
    let declarators ← commaSeparated g.variableDeclarator
    let isInitialized := declarators.getLast?.any fun last => (last.child? .value).isSome
    semicolon (if isInitialized then .afterExpression else .afterType)
    return declarators

/-- Whether `let` introduces names.  A bracket after it always does, on whatever line. -/
def letDeclares (ending : Ending) : Reader Bool := do
  let opensPattern ← test do
    keyword "let"
    if ← nextIs '[' then return ()
    if (← endsHere ending) || !(← nextIs '\x7b') then refuse
  return opensPattern || (← nameFollows ending joiningWords)

def functionDeclaration (g : Grammar) : Reader Node := do
  let first ← start
  let (isGenerator, name) ← functionHead
  if name.isEmpty then refuse
  let signature ← g.signature .afterHead
  if isGenerator || (← nextIs '\x7b') then
    let body ← inRole .body (g.statementBlock .afterExpression)
    let kind := if isGenerator then Kind.generatorFunctionDeclaration else .functionDeclaration
    return .mk kind none first (← stop) (name ++ signature ++ [body])
  else
    semicolon .afterHead
    return .mk .functionSignature none first (← stop) (name ++ signature)

def classDeclaration (g : Grammar) (ending : Ending) : Reader Node := do
  let first ← start
  let decorators ← many g.decorator
  let isAbstract ← skipIf (keyword "abstract")
  let parts ← g.classTail (isAbstract || !ending.operatorMayFollow)
  if !(parts.any fun part => part.kind = .typeIdentifier && part.role = some .name) then refuse
  if !isAbstract then closedLine .afterExpression
  let kind := if isAbstract then Kind.abstractClassDeclaration else .classDeclaration
  return .mk kind none first (← stop) (decorators ++ parts)

def functionIsNamed : Reader Bool := test do
  let (_, name) ← functionHead
  if name.isEmpty then refuse

def classIsNamed (g : Grammar) : Reader Bool := test do
  let _ ← many g.decorator
  let _ ← skipIf (keyword "abstract")
  keyword "class"
  let word ← wordAhead
  if word.isEmpty || isOneOf ["extends", "implements"] word then refuse

/-! ## Declarations of types -/

def interfaceDeclaration (g : Grammar) : Reader Node :=
  node .interfaceDeclaration do
    keyword "interface"
    let name ← inRole .name (named .typeIdentifier)
    let types ← optionally (single g.typeParameters)
    let bases ← optionally <| single <| node .extendsTypeClause do
      keyword "extends"
      commaSeparated (g.namedType .never)
    let body ← inRole .body (g.objectType .interfaceBody)
    return name :: types ++ bases ++ [body]

def typeAlias (g : Grammar) : Reader Node :=
  node .typeAliasDeclaration do
    keyword "type"
    let name ← inRole .name (named .typeIdentifier)
    let types ← optionally (single g.typeParameters)
    exactly "="
    let value ← inRole .value (g.type .afterType)
    semicolon .afterType
    return name :: types ++ [value]

def enumMember (g : Grammar) : Reader Node := do
  let name ← inRole .name g.propertyName
  if ← operatorIs "=" then
    nodeAfter .enumAssignment name (single (g.initializer .never))
  else return name

def enumDeclaration (g : Grammar) : Reader Node :=
  node .enumDeclaration do
    let _ ← skipIf (keyword "const")
    keyword "enum"
    let name ← inRole .name (named .identifier)
    let body ← inRole .body <| node .enumBody do
      mark "\x7b"
      let members ← optionally do
        let members ← commaSeparated g.enumMember
        let _ ← skipIf (mark ",")
        return members
      mark "\x7d"
      return members
    return [name, body]

def moduleDeclaration (g : Grammar) : Reader Node :=
  node .moduleDeclaration do
    keyword "module"
    g.moduleTail .never

def ambientDeclaration (g : Grammar) : Reader Node :=
  let globals : Reader (List Node) := do
    keyword "global"
    single (g.statementBlock .afterType)
  let moduleMember : Reader (List Node) := do
    keyword "module"
    exactly "."
    let member ← named .propertyIdentifier
    exactly ":"
    let type ← g.type .afterType
    semicolon .afterType
    return [member, type]
  node .ambientDeclaration do
    keyword "declare"
    firstOf [globals, moduleMember, single (g.declaration .never)]

def ambientFollows (ending : Ending) (others : List String) : Reader Bool := do
  let isDecorated ← test do
    keyword "declare"
    if (← endsHere ending) || !(← nextIs '@') then refuse
  return isDecorated || (← nameFollows ending others)

/-- A declaration.  The words of some are mere names where the statement ends after them. -/
def anyDeclaration (g : Grammar) (ending : Ending) : Reader Node := do
  let word ← wordAhead
  let isWord (expected : String) : Bool := word = expected.toList
  let others := if ending.operatorMayFollow then joiningWords else []
  if isWord "var" then g.variableDeclaration
  else if isWord "const" then
    if (scanName (← afterWord)).map Prod.fst = some "enum".toList then g.enumDeclaration
    else g.variableDeclaration
  else if isWord "let" then
    if ← letDeclares ending then g.variableDeclaration else refuse
  else if ← opensFunction ending then unlessContinued g.functionDeclaration refuse
  else if isWord "class" || isWord "abstract" || (← nextIs '@') then
    unlessContinued (g.classDeclaration ending) refuse
  else if isWord "interface" then g.interfaceDeclaration
  else if isWord "enum" then g.enumDeclaration
  else if isWord "type" then
    if ← nameFollows ending others then g.typeAlias else refuse
  else if isWord "declare" then
    if ← ambientFollows ending others then g.ambientDeclaration else refuse
  else if isWord "namespace" then
    if ← moduleFollows ending others then g.namespaceExpression .never else refuse
  else if isWord "module" then
    if ← moduleFollows ending others then g.moduleDeclaration else refuse
  else if isWord "import" then importAlias false
  else refuse

/-! ## Control flow -/

def ifStatement (g : Grammar) : Reader Node :=
  node .ifStatement do
    keyword "if"
    let condition ← g.parenthesized .never
    let consequence ← g.statement
    let alternative ← if ← wordIs "else" then
        single <| node .elseClause do
          keyword "else"
          return [← g.statement]
      else pure []
    return condition :: consequence :: alternative

/-- What a loop steps through, up to `in` or `of`.  Only where the loop awaits, `let` with a bracket
is a place. -/
def forInHead (g : Grammar) (awaits : Bool) : Reader (List Node) := do
  mark "("
  let word ← wordAhead
  let indexed := word = "let".toList && (← afterWord).head? = some '['
  let declared : Reader (List Node) := do
    if !isOneOf ["var", "let", "const"] word then refuse
    let _ ← anyWord
    if word = "let".toList && isOneOf ("of" :: joiningWords) (← wordAhead) then refuse
    let target ← g.bindingTarget
    if word = "var".toList && !awaits && (← endsHere .afterType) then refuse
    return [target]
  let initialized (ending : Ending) : Reader (List Node) := do
    keyword "var"
    let target ← g.bindingTarget
    let value ← g.initializer ending
    if ← endsHere .afterExpression then refuse
    return [target, value]
  let place : Reader (List Node) := do
    if isOneOf ["var", "const"] word || (indexed && !awaits) then refuse
    let operand : Reader Node := do
      let operand ← g.operation .place .never
      if isAssignable operand.kind then return operand else refuse
    let name := if isOneOf statementWords word then refuse else named .identifier
    single (firstOf [g.pattern, operand, name])
  let stepped (reader : Reader (List Node)) : Reader (List Node) := do
    let target ← reader
    firstOf [keyword "in", keyword "of"]
    return target
  firstOf ((if indexed then [place, declared] else
    [declared, initialized .never, initialized .beforeIn, place]).map stepped)

def emptyStatement : Reader Node :=
  node .emptyStatement do
    mark ";"
    return []

def forStatement (g : Grammar) : Reader Node := do
  let first ← start
  keyword "for"
  let awaits ← skipIf (keyword "await")
  match ← optional? (g.forInHead awaits) with
  | some head =>
    let subject ← g.commaExpression .never
    mark ")"
    let body ← inRole .body g.statement
    return .mk .forInStatement none first (← stop) (head ++ [subject, body])
  | none =>
    if awaits then refuse
    let upToSemicolon : Reader Node := do
      let part ← g.commaExpression .never
      mark ";"
      return part
    mark "("
    let stepsThrough ← test do
      keyword "async"
      keyword "of"
    if stepsThrough then refuse
    let word ← wordAhead
    let declares ← if word = "let".toList then letDeclares .never
      else pure (isOneOf ["var", "const"] word)
    let initial ← if declares then g.variableDeclaration
      else firstOf [emptyStatement, upToSemicolon]
    let condition ← firstOf [emptyStatement, upToSemicolon]
    let step ← optionally (single (g.commaExpression .never))
    mark ")"
    let body ← inRole .body g.statement
    return .mk .forStatement none first (← stop) (initial :: condition :: step ++ [body])

def switchBody (g : Grammar) : Reader Node :=
  let caseStatements : Reader (List Node) := many do
    if (← wordIs "case") || (← wordIs "default") then refuse
    g.statement
  let oneCase : Reader Node := node .switchCase do
    keyword "case"
    let value ← inRole .value (g.commaExpression .never)
    exactly ":"
    return value :: (← caseStatements)
  let defaultCase : Reader Node := node .switchDefault do
    keyword "default"
    exactly ":"
    caseStatements
  node .switchBody do
    mark "\x7b"
    let cases ← many (firstOf [oneCase, defaultCase])
    mark "\x7d"
    return cases

def switchStatement (g : Grammar) : Reader Node :=
  node .switchStatement do
    keyword "switch"
    let subject ← inRole .value (g.parenthesized .never)
    return [subject, (← g.switchBody).withRole .body]

def catchClause (g : Grammar) : Reader Node :=
  node .catchClause do
    keyword "catch"
    let parameter ← optionally do
      mark "("
      let target ← inRole .name g.bindingTarget
      let type ← optionally (single (g.typeAscription .never))
      mark ")"
      return target :: type
    return parameter ++ [(← g.statementBlock .afterType).withRole .body]

def tryStatement (g : Grammar) : Reader Node :=
  node .tryStatement do
    keyword "try"
    let body ← inRole .body (g.statementBlock .afterType)
    let handler ← if ← wordIs "catch" then single g.catchClause else pure []
    let finalizer ← if ← wordIs "finally" then
        single <| node .finallyClause do
          keyword "finally"
          return [(← g.statementBlock .afterType).withRole .body]
      else pure []
    return body :: handler ++ finalizer

def jump (kind : Kind) (word : String) : Reader Node :=
  node kind do
    keyword word
    let label ← if ← endsHere .afterType then pure []
      else optionally (single (named .statementIdentifier))
    semicolon .afterType
    return label

def leavingStatement (g : Grammar) (kind : Kind) (word : String) : Reader Node :=
  node kind do
    keyword word
    let value ← if kind = .returnStatement && (← endsHere .afterType) then pure []
      else optionally (single (g.commaExpression .afterExpression))
    if kind = .throwStatement && value.isEmpty then refuse
    semicolon (if value.isEmpty then .afterType else .afterExpression)
    return value

def conditioned (g : Grammar) (kind : Kind) (word : String) : Reader Node :=
  node kind do
    keyword word
    let subject ← g.parenthesized .never
    return [subject, (← g.statement).withRole .body]

def doStatement (g : Grammar) : Reader Node :=
  node .doStatement do
    keyword "do"
    let body ← inRole .body g.statement
    keyword "while"
    let condition ← g.parenthesized .never
    let _ ← optional? (semicolon .afterType)
    return [body, condition]

def debuggerStatement : Reader Node :=
  node .debuggerStatement do
    keyword "debugger"
    semicolon .afterType
    return []

def expressionStatement (g : Grammar) : Reader Node :=
  node .expressionStatement do
    let expression ← g.commaExpression .afterExpression
    semicolon .afterExpression
    return [expression]

def labeledStatement (g : Grammar) : Reader Node :=
  node .labeledStatement do
    let label ← named .statementIdentifier
    exactly ":"
    return [label, (← g.statement).withRole .body]

/-! ## Statements by their first token -/

/-- Empty braces are a block unless an operator follows that begins no statement. -/
def bracedStatement (g : Grammar) : Reader Node := do
  let isOperand ← test do
    mark "\x7b"
    mark "\x7d"
    if !(← expressionContinues) then refuse
  let isEmpty ← test do
    mark "\x7b"
    mark "\x7d"
  if isOperand then g.expressionStatement
  else if isEmpty then g.statementBlock .afterExpression
  else g.objectOrBlock g.expressionStatement (g.statementBlock .afterType)

/-- A namespace that ends with its line is an expression. -/
def namespaceStatement (g : Grammar) : Reader Node := do
  let isExpression ← test do
    let _ ← g.namespaceExpression .afterExpression
    if !((← endsHere .afterExpression) || (← expressionContinues)) then refuse
  if isExpression then g.expressionStatement
  else
    let found ← g.namespaceExpression .afterExpression
    closedLine .afterExpression
    return found

def exportOrExpression (g : Grammar) : Reader Node := do
  let after ← afterWord
  let mustExport := isOneOf ["*", "\x7b", "="] (operatorAhead after) ||
    isOneOf ["as", "default"] (((scanName after).map Prod.fst).getD [])
  if mustExport then g.exportStatement
  else firstOf [g.exportStatement, g.expressionStatement]

def classStatement (g : Grammar) : Reader Node := do
  if ← g.classIsNamed then
    unlessContinued (g.classDeclaration .afterExpression) g.expressionStatement
  else g.expressionStatement

def wordStatement (g : Grammar) (word : List Char) : Reader Node := do
  let after ← afterWord
  let isWord (expected : String) : Bool := word = expected.toList
  if isWord "if" then g.ifStatement
  else if isWord "for" then g.forStatement
  else if isWord "while" then g.conditioned .whileStatement "while"
  else if isWord "with" then g.conditioned .withStatement "with"
  else if isWord "do" then g.doStatement
  else if isWord "switch" then g.switchStatement
  else if isWord "try" then g.tryStatement
  else if isWord "break" then jump .breakStatement "break"
  else if isWord "continue" then jump .continueStatement "continue"
  else if isWord "debugger" then debuggerStatement
  else if isWord "return" then g.leavingStatement .returnStatement "return"
  else if isWord "throw" then g.leavingStatement .throwStatement "throw"
  else if isWord "import" then
    let marked := isOneOf ["type", "typeof"] (((scanName after).map Prod.fst).getD [])
    if marked then g.importStatement
    else firstOf [g.importStatement, importAlias true, g.expressionStatement]
  else if isOneOf ["var", "const", "abstract", "interface", "enum"] word then
    g.anyDeclaration .afterExpression
  else if ← opensFunction .afterExpression then
    if ← functionIsNamed then unlessContinued g.functionDeclaration g.expressionStatement
    else g.expressionStatement
  else if isWord "class" then g.classStatement
  else if isOneOf statementWords word then g.expressionStatement
  else if operatorAhead after = [':'] then g.labeledStatement
  else if (← wordEnds) && !(isWord "let" && after.head? = some '[') then g.expressionStatement
  else if isWord "export" then g.exportOrExpression
  else if isWord "namespace" && (← moduleFollows .afterExpression joiningWords) then
    g.namespaceStatement
  else if isWord "let" && after.head? = some '[' then
    g.anyDeclaration .afterExpression
  else firstOf [g.anyDeclaration .afterExpression, g.expressionStatement]

def anyStatement (g : Grammar) : Reader Node := do
  opening
  match (← ahead).head? with
  | none => refuse
  | some '\x7b' => g.bracedStatement
  | some ';' => emptyStatement
  | some '@' => firstOf [g.exportStatement, g.classStatement]
  | some _ =>
    let word ← wordAhead
    if word.isEmpty then g.expressionStatement else g.wordStatement word

end ComponentSurvey.Syntax.Grammar
