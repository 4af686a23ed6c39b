import ComponentSurvey.Syntax.Grammar.Operators

/-!
# Imports and exports

What a module takes from others and what it offers to them.
-/

namespace ComponentSurvey.Syntax.Grammar

open Reader

def fromClause : Reader Node := do
  keyword "from"
  inRole .source stringLiteral

def namesInBraces (kind : Kind) (specifier : Reader Node) : Reader Node :=
  node kind do
    mark "\x7b"
    let specifiers ← optionally (commaSeparated specifier)
    let _ ← skipIf (mark ",")
    mark "\x7d"
    return specifiers

/-- A word that marks the imported name after it as one of a type.  `typeof` always does. -/
def typeOnly : Reader Unit := do
  let typeWord : Reader Unit := do
    keyword "type"
    let next ← wordAhead
    let isQuoted := (← ahead).head?.any fun c => c = '"' || c = '\''
    if isQuoted || (!next.isEmpty && next ≠ "as".toList) then return () else refuse
  let _ ← skipIf (firstOf [keyword "typeof", typeWord])

def importSpecifier : Reader Node :=
  node .importSpecifier do
    typeOnly
    let name ← inRole .name (firstOf [named .identifier, stringLiteral])
    let other ← if ← wordIs "as" then do
        keyword "as"
        single (inRole .otherName (named .identifier))
      else pure []
    if name.kind = .string && other.isEmpty then refuse
    return name :: other

def namespaceImport : Reader Node :=
  node .namespaceImport do
    mark "*"
    keyword "as"
    single (named .identifier)

def importClause : Reader Node :=
  let group := firstOf [namespaceImport, namesInBraces .namedImports importSpecifier]
  let direct : Reader (List Node) := do
    let name ← named .identifier
    let more ← optionally do
      mark ","
      single group
    return name :: more
  node .importClause (firstOf [single group, direct])

def requireClause : Reader Node :=
  node .importRequireClause do
    let name ← named .identifier
    exactly "="
    keyword "require"
    mark "("
    let source ← inRole .source stringLiteral
    mark ")"
    return [name, source]

/-- Whether a word like `type` marks what is imported and is not itself the name. -/
def marksImport : Reader Bool := test do
  if ← wordIs "typeof" then keyword "typeof"
  else
    keyword "type"
    if (← wordIs "from") || (← nextIs ',') then refuse

def importStatement (g : Grammar) : Reader Node :=
  let clause : Reader (List Node) := do
    let clause ← importClause
    return [clause, ← fromClause]
  let bare : Reader (List Node) := single (inRole .source stringLiteral)
  let withObject : Reader Node := node .importAttribute do
    keyword "with"
    single g.objectLiteral
  node .importStatement do
    keyword "import"
    if ← marksImport then
      let _ ← anyWord
    let parts ← firstOf [clause, single requireClause, bare]
    let attributes ← if ← endsHere .afterType then pure [] else optionally (single withObject)
    semicolon .afterType
    return parts ++ attributes

/-- `import` and a name for what another name stands for.  Where a required module may stand
as well, `require` is not such a name. -/
def importAlias (mayRequire : Bool) : Reader Node :=
  node .importAlias do
    keyword "import"
    let name ← named .identifier
    exactly "="
    if mayRequire && (← wordIs "require") then refuse
    let target ← nestedName (← named .identifier)
    semicolon .afterType
    return [name, target]

def exportName : Reader Node := firstOf [named .identifier, stringLiteral]

/-- Here `type` is never a name itself. -/
def exportSpecifier : Reader Node :=
  node .exportSpecifier do
    let _ ← skipIf (firstOf [keyword "type", keyword "typeof"])
    let name ← inRole .name exportName
    let other ← if ← wordIs "as" then do
        keyword "as"
        single (inRole .otherName exportName)
      else pure []
    return name :: other

def exportClause : Reader (List Node) := do
  let clause ← namesInBraces .exportClause exportSpecifier
  if ← endsHere .afterType then return [clause]
  return clause :: (← optionally (single fromClause))

def exportAll : Reader (List Node) :=
  let group : Reader Node := node .namespaceExport do
    mark "*"
    keyword "as"
    single exportName
  let plain : Reader (List Node) := do
    mark "*"
    single fromClause
  firstOf [do return [← group, ← fromClause], plain]

/-- A declaration with a value's name, or else an expression. -/
def defaultExport (g : Grammar) : Reader (List Node) :=
  let value : Reader (List Node) := do
    let value ← inRole .value (g.expression .afterExpression)
    semicolon .afterExpression
    return [value]
  firstOf [single (g.declaration .afterExpression), value]

def exportTail (g : Grammar) : Reader (List Node) := do
  let closed (reader : Reader (List Node)) : Reader (List Node) := do
    let nodes ← reader
    semicolon .afterType
    return nodes
  match (← ahead).head? with
  | some '*' => closed exportAll
  | some '\x7b' => closed exportClause
  | some '=' => do
      exactly "="
      let value ← g.expression .afterExpression
      semicolon .afterExpression
      return [value]
  | _ =>
    let word ← wordAhead
    if word = "default".toList then
      keyword "default"
      g.defaultExport
    else if word = "type".toList && (← afterWord).head? = some '\x7b' then closed do
      keyword "type"
      exportClause
    else if word = "as".toList then closed do
      keyword "as"
      keyword "namespace"
      single (named .identifier)
    else if word = "import".toList then
      if (scanName (← afterWord)).map Prod.fst = some "import".toList then keyword "import"
      single (importAlias false)
    else single (g.declaration .never)

def exportStatement (g : Grammar) : Reader Node :=
  node .exportStatement do
    let decorators ← many g.decorator
    keyword "export"
    return decorators ++ (← g.exportTail)

end ComponentSurvey.Syntax.Grammar
