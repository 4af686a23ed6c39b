import ComponentSurvey.Syntax.Grammar.Functions

/-!
# Classes

The members of a class are told apart by their modifiers and by what follows their names.
-/

namespace ComponentSurvey.Syntax.Grammar

open Reader

/-- Words that qualify the member name after them, where one follows on the same line. -/
def memberWords : List String :=
  accessWords ++ ["declare", "static", "override", "readonly", "async", "get", "set"]

/-- Whether words come in the order of some groups, at most one from each group. -/
def followsOrder : List (List String) → List String → Bool
  | _, [] => true
  | [], _ :: _ => false
  | group :: groups, word :: words =>
    if group.contains word then followsOrder groups words
    else followsOrder groups (word :: words)

def modifiesField (words : List String) : Bool :=
  let heads := [[["declare"], accessWords], [accessWords, ["declare"]]]
  let tails := [[["static"], ["override"], ["readonly"]], [["abstract"], ["readonly"]],
    [["readonly"], ["abstract"]], [["accessor"]]]
  heads.any fun head => tails.any fun tail => followsOrder (head ++ tail) words

def modifiesMethod (words : List String) : Bool :=
  followsOrder [accessWords, ["static"], ["override"], ["readonly"], ["async"], ["get", "set", "*"]]
    words

def modifiesAbstractMethod (words : List String) : Bool :=
  followsOrder [accessWords, ["abstract"], ["override"], ["get", "set", "*"]] words

/-- After some modifiers, whether `abstract` or `accessor` cannot be a name. -/
def mustModify (words : List String) (word : String) : Bool :=
  let heads := "declare" :: accessWords
  if word = "abstract" then words.all fun earlier => ("readonly" :: heads).contains earlier
  else if word = "accessor" then words.all fun earlier => heads.contains earlier
  else false

/-- The modifiers ahead, with the nodes that some of them have, after those read earlier. -/
def memberModifiers : Nat → List String → Reader (List String × List Node)
  | 0, words => return (words, [])
  | fuel + 1, words => do
    let first ← start
    match ← ["abstract", "accessor"].findM? fun word =>
        if mustModify words word then skipIf (keyword word) else return false with
    | some word => memberModifiers fuel (words ++ [word])
    | none =>
      match ← memberWords.findM? (modifier .afterType) with
      | none => return if ← skipIf (mark "*") then (words ++ ["*"], []) else (words, [])
      | some word =>
        let stop ← stop
        let span (kind : Kind) : List Node := [.mk kind none first stop []]
        let here := if accessWords.contains word then span .accessibilityModifier
          else if word = "override" then span .overrideModifier else []
        let (words, nodes) ← memberModifiers fuel (words ++ [word])
        return (words, here ++ nodes)

def memberEnd (ending : Ending) : Reader Unit := firstOf [mark ",", semicolon ending]

def classField (g : Grammar) (first : Nat) (head : List Node) : Reader Node := do
  let type ← optionally (single (g.typeAscription .afterType))
  let value ← optionally (single (g.initializer .afterExpression))
  let field := Node.mk .publicFieldDefinition none first (← stop) (head ++ type ++ value)
  memberEnd (if value.isEmpty then .afterType else .afterExpression)
  return field

def classMethod (g : Grammar) (words : List String) (first : Nat) (head : List Node) :
    Reader Node := do
  let signature ← g.signature .afterHead
  if ← nextIs '\x7b' then
    if !modifiesMethod words then refuse
    let body ← inRole .body (g.statementBlock .afterType)
    let method := Node.mk .methodDefinition none first (← stop) (head ++ signature ++ [body])
    let _ ← optional? (semicolon .afterType)
    return method
  else
    let isAbstract := words.contains "abstract"
    if !(if isAbstract then modifiesAbstractMethod words else modifiesMethod words) then refuse
    let kind := if isAbstract then Kind.abstractMethodSignature else Kind.methodSignature
    let method := Node.mk kind none first (← stop) (head ++ signature)
    memberEnd .afterHead
    return method

/-- A field or a method.  Decorators belong to a field, stand beside a method with a body, and
stand before nothing else. -/
def namedMember (g : Grammar) (outer : Nat) (decorators : List Node) : Reader (List Node) := do
  let first ← start
  let (words, modifiers) ← memberModifiers (← fuel) []
  let name ← inRole .name g.propertyName
  let optionalNode ← optionally (single optionalMarkNode)
  let head := modifiers ++ name :: optionalNode
  let ended ← if modifiesField words then endsHere .afterType else pure false
  if !ended && ((← nextIs '(') || (← nextIs '<')) then
    let method ← g.classMethod words first head
    if !decorators.isEmpty && method.kind ≠ .methodDefinition then refuse
    return decorators ++ [method]
  else
    if !modifiesField words then refuse
    if !ended && optionalNode.isEmpty then
      let _ ← skipIf (exactly "!")
    single (g.classField outer (decorators ++ head))

def staticBlock (g : Grammar) : Reader Node :=
  node .classStaticBlock do
    keyword "static"
    if ← endsHere .afterType then refuse
    return [(← g.statementBlock .afterType).withRole .body]

def classIndex (g : Grammar) : Reader Node := do
  let member ← g.indexSignature .afterType
  memberEnd .afterType
  return member

def classMember (g : Grammar) : Reader (List Node) := do
  let first ← start
  let decorators ← many g.decorator
  if !decorators.isEmpty then g.namedMember first decorators
  else if ← nextIs ';' then
    mark ";"
    return []
  else
    firstOf [single g.staticBlock, single g.classIndex, g.namedMember first []]

def classBody (g : Grammar) : Reader Node :=
  node .classBody do
    mark "\x7b"
    let members ← many g.classMember
    mark "\x7d"
    return members.flatten

def classHeritage (g : Grammar) : Reader (List Node) := do
  let base : Reader (List Node) := do
    let value ← inRole .value (g.operation .heritage .never)
    return value :: (← optionally (single g.typeArguments))
  let extending : Reader Node := node .extendsClause do
    keyword "extends"
    let first ← base
    let others ← many do
      mark ","
      base
    return first ++ others.flatten
  let implementing : Reader Node := node .implementsClause do
    keyword "implements"
    commaSeparated (g.type .never)
  let first ← start
  let clauses := (← optionally (single extending)) ++ (← optionally (single implementing))
  if clauses.isEmpty then return []
  else return [.mk .classHeritage none first (← stop) clauses]

def classTail (g : Grammar) (hasName : Bool) : Reader (List Node) := do
  keyword "class"
  let name ← optionally do
    if !hasName && isOneOf ["extends", "implements"] (← wordAhead) then refuse
    single (inRole .name (named .typeIdentifier))
  let types ← optionally (single g.typeParameters)
  let heritage ← g.classHeritage
  let body ← inRole .body g.classBody
  return name ++ types ++ heritage ++ [body]

def classExpression (g : Grammar) : Reader Node :=
  node .classExpression do
    let decorators ← many g.decorator
    return decorators ++ (← g.classTail false)

end ComponentSurvey.Syntax.Grammar
