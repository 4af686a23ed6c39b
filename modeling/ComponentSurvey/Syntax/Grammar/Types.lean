import ComponentSurvey.Syntax.Grammar.Basic

/-!
# Types

Type expressions, parameter lists and the members of object types.  A type stops before a new line
that may end its declaration.
-/

namespace ComponentSurvey.Syntax.Grammar

open Reader

/-! ## Names and arguments -/

def predefinedTypes : List String :=
  ["any", "number", "boolean", "string", "symbol", "void", "unknown", "never", "object"]

/-- Words that name no type where one begins. -/
def typeWords : List String :=
  predefinedTypes ++ ["import", "typeof", "new", "abstract", "infer", "keyof", "unique", "readonly",
    "this", "true", "false", "null", "undefined", "const"]

def typeArguments (g : Grammar) : Reader Node :=
  node .typeArguments do
    exactly "<"
    let types ← commaSeparated (g.type .never)
    let _ ← skipIf (mark ",")
    mark ">"
    return types

/-- A name with further names after points, or with one at most where members follow. -/
def qualifiedName (ending : Ending) (first : Node) : Reader Node := do
  let limit ← if ending.memberFollows then pure 1 else fuel
  let parts ← repeatedAfter limit (exactly ".") (named .identifier)
  match parts.getLast? with
  | none => return first.withKind .typeIdentifier
  | some last =>
    let path := parts.dropLast.foldl
      (fun path part =>
        .mk .nestedIdentifier none first.start part.stop
          [(if path.kind = .nestedIdentifier then path.withKind .memberExpression
            else path).withRole .object,
            (part.withKind .propertyIdentifier).withRole .property])
      first
    return .mk .nestedTypeIdentifier none first.start last.stop
      [path.withRole .qualifier, (last.withKind .typeIdentifier).withRole .name]

/-- A named type, dotted or not, with its arguments.  An angle bracket always opens those. -/
def namedType (g : Grammar) (ending : Ending) : Reader Node := do
  let name ← qualifiedName ending (← named .identifier)
  if (← endsHere ending) || !(← operatorIs "<") then return name
  let arguments ← g.typeArguments
  return .mk .genericType none name.start arguments.stop [name.withRole .name, arguments]

def typeParameter (g : Grammar) : Reader Node :=
  node .typeParameter do
    let _ ← skipIf (keyword "const")
    let name ← inRole .name (named .typeIdentifier)
    let bound ← optionally <| single <| node .constraint do
      firstOf [keyword "extends", exactly ":"]
      return [← g.type .never]
    let default ← optionally <| single <| node .defaultType do
      exactly "="
      return [← g.type .never]
    return name :: bound ++ default

def typeParameters (g : Grammar) : Reader Node :=
  node .typeParameters do
    exactly "<"
    let parameters ← commaSeparated g.typeParameter
    let _ ← skipIf (mark ",")
    mark ">"
    return parameters

/-! ## Annotations -/

def typeAscription (g : Grammar) (ending : Ending) : Reader Node :=
  node .typeAscription do
    exactly ":"
    return [← g.type ending]

def thisNode : Reader Node := wordNode .thisKeyword "this"

/-- What a predicate is about: `this`, a name, or the word of a predefined type. -/
def predicateSubject : Reader Node := do
  let word ← wordAhead
  if word = "this".toList then thisNode
  else if word = "string".toList then node .identifier (single (named .stringWord))
  else if word = "number".toList then node .identifier (single (named .numberWord))
  else if word = "unique".toList then node .identifier do
    keyword "unique"
    keyword "symbol"
    return []
  else if isOneOf typeWords word && !isOneOf predefinedTypes word then refuse
  else named .identifier

def typePredicate (g : Grammar) (ending : Ending) : Reader Node :=
  node .typePredicate do
    let subject ← inRole .name predicateSubject
    if ← endsHere ending then refuse
    keyword "is"
    return [subject, ← inRole .value (g.type ending)]

def assertsClause (g : Grammar) (ending : Ending) : Reader Node :=
  let plainName : Reader Node := do
    if isOneOf predefinedTypes (← wordAhead) then refuse
    named .identifier
  node .asserts do
    keyword "asserts"
    single (firstOf [g.typePredicate ending, thisNode, plainName])

def resultOf (g : Grammar) (ending : Ending) : Reader Node := do
  if ← wordIs "asserts" then g.assertsClause ending
  else firstOf [g.typePredicate ending, g.type ending]

def resultAscription (g : Grammar) (ending : Ending) : Reader Node := do
  let first ← start
  exactly ":"
  let result ← g.resultOf ending
  let kind : Kind :=
    match result.kind with
    | .typePredicate => .predicateAscription
    | .asserts => .assertsAscription
    | _ => .typeAscription
  return .mk kind none first (← stop) [result]

/-! ## Parameters -/

def decoratorName : Reader Node := do
  let first ← named .identifier
  let path ← nestedName first
  return if path.kind = .nestedIdentifier then path.withKind .memberExpression else path

def decorator (g : Grammar) : Reader Node :=
  let call : Reader Node := do
    let callee ← decoratorName
    let callArguments : Reader (List Node) := do
      let types ← optionally (single g.typeArguments)
      return types ++ [← inRole .arguments g.arguments]
    match ← optional? callArguments with
    | none => return callee
    | some rest =>
      return .mk .callExpression none callee.start (← stop) (callee.withRole .callee :: rest)
  node .decorator do
    mark "@"
    if ← nextIs '(' then
      single <| node .parenthesizedExpression do
        mark "("
        let inner ← call
        mark ")"
        return [inner]
    else
      single call

def accessWords : List String := ["public", "private", "protected"]

/-- Whether a parameter may begin with a character, which is a letter or one of some marks. -/
def beginsTarget (marks : String) (c : Char) : Bool :=
  Text.isNameStart c || marks.toList.contains c

def parameterModifiers : Reader (List Node) := do
  let readWord (kind : Kind) (words : List String) (beginsTarget : Char → Bool) :
      Reader (List Node) := do
    let qualifies := (← afterWord).head?.any beginsTarget
    if isOneOf words (← wordAhead) && qualifies then single (named kind) else return []
  let access ← readWord .accessibilityModifier accessWords (beginsTarget "\x7b[(.\"'\x60")
  let override ← readWord .overrideModifier ["override"] (beginsTarget "\x7b[(.\"'\x60")
  let _ ← readWord .identifier ["readonly"] (beginsTarget "\x7b.")
  return access ++ override

def restPattern (g : Grammar) : Reader Node :=
  node .restPattern do
    mark "..."
    return [← g.pattern]

/-- A question mark that asks for a condition, not one that makes a parameter optional. -/
def asksCondition (text : List Char) : Bool :=
  operatorAhead text = ['?'] &&
    !(((text.drop 1).dropWhile Text.isLineBlank).head?.any fun c => ":),".toList.contains c)

def parameter (g : Grammar) : Reader Node := do
  let first ← start
  let decorators ← many g.decorator
  let modifiers ← parameterModifiers
  let pattern ← inRole .name (firstOf [g.restPattern, g.pattern, thisNode])
  if asksCondition (← ahead) then refuse
  let mark ← optionally (single optionalMarkNode)
  let type ← optionally (single (g.typeAscription .never))
  let value ← if pattern.kind = .restPattern then pure []
    else optionally (single (g.initializer .never))
  let kind := if mark.isEmpty then Kind.requiredParameter else Kind.optionalParameter
  return .mk kind none first (← stop) (decorators ++ modifiers ++ pattern :: mark ++ type ++ value)

def formalParameters (g : Grammar) : Reader Node :=
  node .formalParameters do
    mark "("
    let parameters ← optionally do
      let parameters ← commaSeparated g.parameter
      let _ ← skipIf (mark ",")
      return parameters
    mark ")"
    return parameters

def signature (g : Grammar) (ending : Ending) : Reader (List Node) := do
  let types ← optionally (single g.typeParameters)
  let parameters ← g.formalParameters
  let result ← optionally (single (g.resultAscription ending))
  return types ++ parameters :: result

/-! ## Members of object types -/

/-- `[name: K]: V` and mapped `[K in T]: V`. -/
def indexSignature (g : Grammar) (ending : Ending) : Reader Node :=
  node .indexSignature do
    let _ ← optional? do
      let _ ← optional? (firstOf [mark "-", mark "+"])
      keyword "readonly"
      if ← endsHere ending then refuse
      if !(← nextIs '[') then refuse
    mark "["
    let plain : Reader (List Node) := do
      let name ← inRole .name (named .identifier)
      exactly ":"
      return [name, ← g.type .never]
    let mapped : Reader (List Node) := single <| node .mappedTypeClause do
      let name ← inRole .name (named .typeIdentifier)
      keyword "in"
      let type ← g.type .never
      let other ← optionally do
        keyword "as"
        single (inRole .otherName (g.type .never))
      return name :: type :: other
    let head ← firstOf [plain, mapped]
    mark "]"
    let ascription (kind : Kind) (opening : String) : Reader Node := node kind do
      mark opening
      return [← g.type ending]
    let type ← firstOf [ascription .omittingAscription "-?:",
      ascription .addingAscription "+?:", ascription .optingAscription "?:",
      g.typeAscription ending]
    return head ++ [type]

def constructSignature (g : Grammar) (ending : Ending) : Reader Node :=
  node .constructSignature do
    let isAbstract ← skipIf (keyword "abstract")
    keyword "new"
    if !isAbstract && (← endsHere ending) then refuse
    let types ← optionally (single g.typeParameters)
    let parameters ← g.formalParameters
    let type ← optionally (single (g.typeAscription ending))
    return types ++ parameters :: type

def propertyOrMethodSignature (g : Grammar) (ending : Ending) : Reader Node := do
  let first ← start
  let modifiers ← propertyModifiers ending
  let isMethod ← methodModifiers ending
  let name ← inRole .name g.propertyName
  let mark ← optionally (single optionalMarkNode)
  let property (type : List Node) : Reader Node := do
    if isMethod then refuse
    return .mk .propertySignature none first (← stop) (modifiers ++ name :: mark ++ type)
  if !isMethod && (← endsHere ending) then property []
  else if (← nextIs '(') || (← nextIs '<') then
    let rest ← g.signature ending
    return .mk .methodSignature none first (← stop) (modifiers ++ name :: mark ++ rest)
  else property (← optionally (single (g.typeAscription ending)))

def exportMember (g : Grammar) (ending : Ending) : Reader Node := do
  if !(← wordIs "export") && !(← nextIs '@') then refuse
  let isName : Reader Unit := do
    keyword "export"
    if !(← endsHere ending) then refuse
  if ← test isName then refuse
  let member ← g.statement
  if member.kind = .exportStatement then return member else refuse

def typeMember (g : Grammar) : Reader Node := do
  let ending := Ending.afterType
  if ← wordIs "abstract" then g.constructSignature ending
  else
    firstOf [g.exportMember ending, g.indexSignature ending, g.constructSignature ending,
      node .callSignature (g.signature ending), g.propertyOrMethodSignature ending]

/-- The members of an object type, between braces of either form.  A separator may be left out
before the closing one, and one may stand before the first member. -/
def objectType (g : Grammar) (kind : Kind) : Reader Node :=
  let separator := firstOf [mark ",", semicolon .afterType]
  let closing := firstOf [mark "|\x7d", mark "\x7d"]
  node kind do
    firstOf [mark "\x7b|", mark "\x7b"]
    let members ← optionally do
      let _ ← skipIf (firstOf [mark ",", mark ";"])
      let first ← g.typeMember
      let others ← many do
        separator
        g.typeMember
      let _ ← skipIf separator
      return first :: others
    closing
    return members

/-! ## Primary types -/

def isPrimaryType : Kind → Bool
  | .functionType | .constructorType | .readonlyType | .inferType | .memberExpression
  | .callExpression => false
  | _ => true

def tupleMember (g : Grammar) : Reader Node :=
  let label : Reader Node := do
    if isOneOf typeWords (← wordAhead) then refuse
    named .identifier
  let labeled : Reader Node := do
    let first ← start
    let name ← inRole .name label
    let mark ← optionally (single optionalMarkNode)
    let type ← g.typeAscription .never
    let kind := if mark.isEmpty then Kind.requiredParameter else Kind.optionalParameter
    return .mk kind none first (← stop) (name :: mark ++ [type])
  let labeledRest : Reader Node := node .requiredParameter do
    let name ← inRole .name (node .restPattern (do mark "..."; single (g.pattern)))
    return [name, ← g.typeAscription .never]
  let rest : Reader Node := node .restType do
    mark "..."
    return [← g.type .never]
  let plain : Reader Node := do
    let type ← g.type .never
    if ← nextIs '?' then
      nodeAfter .optionalType type do
        mark "?"
        return []
    else return type
  firstOf [labeled, labeledRest, rest, plain]

def literalType (inner : Reader Node) : Reader Node := node .literalType (single inner)

def signedNumber : Reader Node :=
  node .unaryExpression do
    firstOf [mark "-", mark "+"]
    return [← numberLiteral]

/-- One step along a path: what is read after the path and what it makes of the two. -/
structure PathStep where
  kind : Kind
  role : Role
  inner : Node
  stop : Nat

/-- The path that the steps make from its base, each step around the one before. -/
def pathOf (base : Node) (steps : List PathStep) : Node :=
  steps.foldl
    (fun path step => .mk step.kind none path.start step.stop [path.withRole step.role, step.inner])
    base

def pathMember (operator : String) : Reader PathStep := do
  exactly operator
  let member ← firstOf [named .propertyIdentifier,
    leaf .privatePropertyIdentifier scanPrivateName]
  return ⟨.memberExpression, .object, member.withRole .property, ← stop⟩

def pathCall (g : Grammar) : Reader PathStep := do
  let arguments ← inRole .arguments g.arguments
  return ⟨.callExpression, .callee, arguments, ← stop⟩

/-- The steps of a path, of which no two in a row are calls. -/
def pathSteps (ending : Ending) (member call : Reader PathStep) :
    Nat → Bool → Reader (List PathStep)
  | 0, _ => return []
  | fuel + 1, mayCall => do
    if ← endsHere ending then return []
    match ← optional? (if mayCall then firstOf [call, member] else member) with
    | none => return []
    | some step =>
      return step :: (← pathSteps ending member call fuel (step.kind ≠ .callExpression))

/-- `import` in a type, with a call or a member at least. -/
def importedType (g : Grammar) (ending : Ending) : Reader Node := do
  let base ← wordNode .importKeyword "import"
  let first ← firstOf [g.pathCall, pathMember "."]
  let others ← pathSteps ending (pathMember ".") g.pathCall (← fuel)
    (first.kind ≠ .callExpression)
  return pathOf base (first :: others)

/-- `?.[..]` in a type, where the index is a literal or a predefined type. -/
def pathIndex (g : Grammar) : Reader PathStep := do
  mark "?."
  mark "["
  let index ← firstOf [stringLiteral, numberLiteral, g.typeOperation .tight .never]
  if !([Kind.string, .number, .predefinedType].contains index.kind) then refuse
  mark "]"
  return ⟨.subscriptExpression, .object, index, ← stop⟩

/-- What `typeof` asks about: a name with its members, indices and calls, or an instantiation. -/
def typeQuery (g : Grammar) (ending : Ending) : Reader Node :=
  node .typeQuery do
    keyword "typeof"
    let base ← firstOf [wordNode .importKeyword "import", thisNode, named .identifier]
    let member := if ending.memberFollows then pathMember "."
      else firstOf [g.pathIndex, pathMember ".", pathMember "?."]
    let steps ← if base.kind = .importKeyword then
        match ← optional? g.pathCall with
        | none => pure []
        | some call => (call :: ·) <$> pathSteps ending member g.pathCall (← fuel) false
      else pathSteps ending member g.pathCall (← fuel) (base.kind ≠ .thisKeyword)
    let path := pathOf base steps
    let mayInstantiate := path.kind ≠ .callExpression && path.kind ≠ .thisKeyword
    let types ← if (← endsHere ending) || !mayInstantiate || !(← operatorIs "<") then pure []
      else single g.typeArguments
    match types with
    | [] => if path.kind = .importKeyword then refuse else return [path]
    | types :: _ =>
      return [.mk .instantiationExpression none path.start types.stop
        [path.withRole .callee, types]]

def templateHoleType (g : Grammar) : Reader Node :=
  node .templateType do
    let _ ← immediate fun text =>
      if startsWith ['$', '\x7b'] text then splitCount 2 text else none
    let type ← g.type .never
    if !(isPrimaryType type.kind || type.kind = .inferType) then refuse
    mark "\x7d"
    return [type]

def wordType (g : Grammar) (ending : Ending) (word : List Char) : Reader Node :=
  if word = "string".toList then node .predefinedType (single (named .stringWord))
  else if word = "number".toList then node .predefinedType (single (named .numberWord))
  else if isOneOf predefinedTypes word then named .predefinedType
  else if word = "unique".toList then node .predefinedType do
    keyword "unique"
    keyword "symbol"
    return []
  else if word = "this".toList then named .thisType
  else if word = "true".toList then literalType (named .trueLiteral)
  else if word = "false".toList then literalType (named .falseLiteral)
  else if word = "null".toList then literalType (named .nullLiteral)
  else if word = "undefined".toList then literalType (named .undefinedLiteral)
  else if word = "const".toList then named .constType
  else if word = "typeof".toList then g.typeQuery ending
  else if word = "import".toList then g.importedType ending
  else if isOneOf typeWords word then refuse
  else g.namedType ending

def continuesImport (g : Grammar) : Reader Bool := test do
  keyword "import"
  let _ ← optional? g.arguments
  if ← nextIs ')' then refuse

/-- An import in parentheses that goes on after its arguments is a parameter. -/
def parenthesizedType (g : Grammar) : Reader Node :=
  node .parenthesizedType do
    mark "("
    if ← g.continuesImport then refuse
    let type ← g.type .never
    mark ")"
    return [type]

def primaryType (g : Grammar) (ending : Ending) : Reader Node := do
  match (← ahead).head? with
  | none => refuse
  | some '(' => g.parenthesizedType
  | some '\x7b' => g.objectType .objectType
  | some '[' => node .tupleType do
      mark "["
      let members ← optionally do
        let members ← commaSeparated g.tupleMember
        return members
      let _ ← skipIf (mark ",")
      mark "]"
      return members
  | some '\x60' => template .templateLiteralType false g.templateHoleType
  | some '*' => node .existentialType do
      mark "*"
      return []
  | some '?' => node .flowMaybeType do
      mark "?"
      let type ← g.type ending
      if isPrimaryType type.kind then return [type] else refuse
  | some c =>
    if c = '"' || c = '\'' then literalType stringLiteral
    else if c = '-' || c = '+' then literalType signedNumber
    else if Text.isDigit c || c = '.' then literalType numberLiteral
    else g.wordType ending (← wordAhead)

/-! ## Functions -/

/-- The braces of a first parameter that are read as those of an object type, which is what they are
unless a colon follows them. -/
def opensWithObjectType (g : Grammar) : Reader Unit := do
  mark "("
  if !((← nextIs '\x7b') || (← nextIs '[')) then refuse
  let type ← g.typeOperation .tight .never
  let braced := type.preorder.filter fun part =>
    part.kind = .objectType && !part.children.isEmpty
  match braced with
  | [] => refuse
  | [only] => if only.start = type.start && (← nextIs ':') then refuse
  | _ => return ()

def functionType (g : Grammar) (ending : Ending) : Reader Node :=
  node .functionType do
    let types ← optionally (single g.typeParameters)
    let before ← get
    let parameters ← g.formalParameters
    exactly "=>"
    if types.isEmpty && (g.opensWithObjectType before).isSome then refuse
    return types ++ [parameters, ← g.resultOf ending]

def constructorType (g : Grammar) (ending : Ending) : Reader Node :=
  node .constructorType do
    let _ ← skipIf (keyword "abstract")
    keyword "new"
    let types ← optionally (single g.typeParameters)
    let parameters ← g.formalParameters
    mark "=>"
    return types ++ [parameters, ← g.typeOperation .tight ending]

/-! ## Operators on types -/

def leadingType (g : Grammar) (kind : Kind) (operator : String) (pending : PendingType)
    (ending : Ending) : Reader Node :=
  node kind do
    mark operator
    return [← g.typeOperation pending ending]

/-- A type in parentheses or a function type.  Where an arrow follows the type, the first arrow is
that one. -/
def parenthesizedOrFunctionType (g : Grammar) (ending : Ending) : Reader Node := do
  let before ← get
  match ← optional? g.parenthesizedType with
  | none => if ← arrowAhead then havingRefused true (g.functionType ending) else refuse
  | some found =>
    if ending.arrowFollows || !(← operatorIs "=>") then return found
    match g.functionType ending before with
    | some (function, after) =>
      set after
      return function
    | none => return found

def operandType (g : Grammar) (ending : Ending) : Reader Node := do
  match (← ahead).head? with
  | some '<' => g.functionType ending
  | some '(' => g.parenthesizedOrFunctionType ending
  | some '|' => g.leadingType .unionType "|" .union ending
  | some '&' => g.leadingType .intersectionType "&" .tight ending
  | _ =>
    let word ← wordAhead
    if isOneOf ["new", "abstract"] word then g.constructorType ending
    else if word = "readonly".toList then node .readonlyType do
      keyword "readonly"
      single (g.type ending)
    else if word = "keyof".toList then node .indexTypeQuery do
      keyword "keyof"
      let type ← g.typeOperation .tight ending
      if isPrimaryType type.kind then return [type] else refuse
    else if word = "infer".toList then node .inferType do
      keyword "infer"
      let name ← named .typeIdentifier
      if ← endsHere ending then return [name]
      let bound ← optionally do
        keyword "extends"
        single (g.type ending)
      return name :: bound
    else g.primaryType ending

def isLogical (ending : Ending) (text : List Char) : Bool :=
  ending.operatorMayFollow && (startsWith ['|', '|'] text || startsWith ['&', '&'] text)

/-- What extends a type by one operator: brackets, another operand, or a condition.  Nothing, if
the operator ahead belongs to something else. -/
def typeStep (g : Grammar) (pending : PendingType) (ending : Ending) (type : Node) :
    Reader (Option Node) := do
  let text ← ahead
  if isLogical ending text || startsWith ['|', '\x7d'] text then return none
  match text.head? with
  | some '[' =>
    if isPrimaryType type.kind then
      mark "["
      let index ← optionally (single (g.type .never))
      mark "]"
      let kind := if index.isEmpty then Kind.arrayType else .lookupType
      return some (.mk kind none type.start (← stop) (type :: index))
    else return none
  | some '&' =>
    if pending.yieldsToIntersection then
      some <$> nodeAfter .intersectionType type do
        mark "&"
        return [← g.typeOperation .tight ending]
    else return none
  | some '|' =>
    if pending.yieldsToUnion then
      some <$> nodeAfter .unionType type do
        mark "|"
        return [← g.typeOperation .union ending]
    else return none
  | _ =>
    if pending.yieldsToUnion && (← wordIs "extends") then
      some <$> nodeAfter .conditionalType type do
        keyword "extends"
        let bound ← g.type .never
        mark "?"
        let positive ← g.type .never
        exactly ":"
        return [bound, positive, ← g.type ending]
    else return none

def typeSteps (g : Grammar) (pending : PendingType) (ending : Ending) : Nat → Node → Reader Node
  | 0, type => return type
  | fuel + 1, type => do
    if ← endsHere ending then return type
    match ← g.typeStep pending ending type with
    | none => return type
    | some next => typeSteps g pending ending fuel next

def anyType (g : Grammar) (pending : PendingType) (ending : Ending) : Reader Node := do
  let operand ← g.operandType ending
  g.typeSteps pending ending (← fuel) operand

end ComponentSurvey.Syntax.Grammar
