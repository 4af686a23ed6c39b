import ComponentSurvey.Syntax.Grammar.Operands

/-!
# Operators

An operand is extended step by step by what may follow it, as long as the operator that waits to
its left lets it.  `anyOperation` reads an operand with all its steps.
-/

namespace ComponentSurvey.Syntax.Grammar

open Reader

/-! ## Binary operators -/

def binaryOperator? (operator : String) : Option Pending :=
  if operator = "??" then some .nullish
  else if operator = "||" then some .or
  else if operator = "&&" then some .and
  else if operator = "|" then some .bitOr
  else if operator = "^" then some .bitXor
  else if operator = "&" then some .bitAnd
  else if ["==", "===", "!=", "!=="].contains operator then some .equality
  else if ["<=", ">", ">=", "in", "instanceof"].contains operator then some .relation
  else if ["<<", ">>", ">>>"].contains operator then some .shift
  else if operator = "+" || operator = "-" then some .sum
  else if ["*", "/", "%"].contains operator then some .product
  else if operator = "**" then some .power
  else none

def binary (g : Grammar) (waiting : Pending) (operator : String) (ending : Ending) (left : Node) :
    Reader Node :=
  nodeAfter .binaryExpression left do
    mark operator
    return [← g.operation waiting ending]

/-! ## Assignments and conditions -/

def assignmentMarks : List String :=
  ["+=", "-=", "*=", "/=", "%=", "^=", "&=", "|=", ">>=", ">>>=", "<<=", "**=", "&&=", "||=",
    "??="]

def isChangeable : Kind → Bool
  | .undefinedLiteral | .objectPattern | .arrayPattern => false
  | kind => isAssignable kind

def assigned (g : Grammar) (kind : Kind) (operator : String) (ending : Ending) (left : Node) :
    Reader Node :=
  nodeAfter kind left do
    mark operator
    return [← g.expression ending.inside]

/-- In the first branch a colon may belong to the condition rather than to a function. -/
def ternary (g : Grammar) (ending : Ending) (condition : Node) : Reader Node :=
  nodeAfter .ternaryExpression condition do
    mark "?"
    let branch (ending : Ending) : Reader Node := do
      let positive ← g.expression ending
      exactly ":"
      return positive
    let again := if ← arrowAhead then branch .beforeColon else refuse
    let positive ← firstOf [branch .never, again]
    return [positive, ← g.expression ending.inside]

/-! ## Angle brackets -/

/-- Whether an expression could be meant by the only type between angle brackets. -/
def readsAsOperand (types : List Node) : Bool :=
  match types with
  | [type] =>
    match type.kind with
    | .typeIdentifier | .literalType | .thisType | .predefinedType => true
    | .objectType => type.children.isEmpty
    | .typeQuery => type.children.all fun child => child.kind = .identifier
    | _ => false
  | _ => false

/-- Words that begin an operand and so no type after an operand. -/
def valueWords : List String := [
  "async", "await", "class", "declare", "delete", "export", "function", "get", "import", "let",
  "module", "namespace", "override", "private", "protected", "public", "set", "static", "super",
  "type", "using", "yield"]

/-- Words that begin a type and so no operand after an angle bracket. -/
def typeOnlyWords : List String :=
  ["abstract", "const", "infer", "keyof", "never", "unique", "unknown"]

def wordInAngles : Reader (List Char) := fun input =>
  match (mark "<" *> wordAhead) input with
  | some (word, _) => some (word, input)
  | none => some ([], input)

/-- Type arguments after an operand, unless they begin like an operand or their closing bracket
begins an operator. -/
def operandTypeArguments (g : Grammar) : Reader Node := do
  let word ← wordInAngles
  let isValue ← test do
    mark "<"
    firstOf [do keyword "typeof"; keyword "import",
      do
        let _ ← firstOf [scanned scanName, scanned scanString, scanned scanNumber]
        firstOf [exactly "&&", exactly "||"]]
  if isValue || isOneOf valueWords word then refuse
  let isTypeOnly := isOneOf ["void", "unknown", "never"] word
  let types ← g.typeArguments
  let mayCompare := !isTypeOnly && readsAsOperand types.children
  match (← get).rest with
  | '>' :: _ => if mayCompare then refuse else return types
  | '=' :: rest => if mayCompare || rest.head? ≠ some '=' then refuse else return types
  | _ => return types

/-- Whether the base of a class ends here, so that any type arguments are those of the base. -/
def endsBase (g : Grammar) : Reader Bool := test do
  if ← operatorIs "<" then
    let _ ← g.typeArguments
  if (← nextIs '\x7b') || (← nextIs ',') || (← wordIs "implements") then return () else refuse

/-- Whether the parentheses ahead are those of a function with an arrow, or hold a name with a type;
they are then no arguments. -/
def opensArrowOrTyped (g : Grammar) (ending : Ending) : Reader Bool := do
  let isArrow ← test do
    let _ ← g.arrowParameters ending
    exactly "=>"
  let isTyped ← test do
    mark "("
    let _ ← anyWord
    exactly ":"
  return isArrow || isTyped

def comparedFurther (ending : Ending) (closing : Nat) (comparison : Reader Node) :
    Reader Unit := do
  let _ ← comparison
  let input ← get
  if input.offset ≤ closing || input.rest.isEmpty then refuse
  if ← endsHere ending then return ()
  if (← beginsOperand) || (← nextIs ':') then refuse

/-- Whether an angle bracket opens what is read as types although no expression is. -/
def opensTypesOnly (g : Grammar) (ending : Ending) : Reader Bool := do
  let holdsMembers ← test do
    mark "<"
    if !isOneOf ["\x7b", "[", "("] (← operator) then refuse
    let type ← g.typeOperation .tight .never
    let isBraced (part : Node) : Bool := part.kind = .objectType && !part.children.isEmpty
    if !type.preorder.any isBraced then refuse
  let qualifies ← test do
    mark "<"
    keyword "readonly"
    if ← endsHere ending then refuse
    if !((← beginsOperand) || isOneOf ["*", "&", "|", "?"] (← operator)) then refuse
  return holdsMembers || qualifies || isOneOf typeOnlyWords (← wordInAngles)

/-- A call with type arguments; an instantiation, if the expression goes on from it to its end; or
a comparison. -/
def angleStep (g : Grammar) (pending : Pending) (ending : Ending) (continued : Node → Reader Node)
    (left : Node) : Reader Node := do
  let call : Reader Node :=
    nodeAfter .callExpression (left.withRole .callee) do
      let types ← g.operandTypeArguments
      return [types, ← inRole .arguments g.arguments]
  let calls ← test do
    let _ ← g.operandTypeArguments
    if !(← nextIs '(') || (← g.opensArrowOrTyped ending) then refuse
  let typesOnly ← g.opensTypesOnly ending
  let comparison := if typesOnly then refuse else g.binary .relation "<" ending left
  let instantiation : Reader Node := do
    let before ← get
    let types ← g.operandTypeArguments
    if ← nextIs '(' then refuse
    let further := comparedFurther ending types.stop (comparison >>= continued)
    if (← endsHere ending) && (further before).isSome then refuse
    let found ← continued <|
      .mk .instantiationExpression none left.start types.stop [left.withRole .callee, types]
    let closes := ending.ofFollows && (← wordIs "of") || pending = .heritage && (← g.endsBase)
    if closes || (← endsHere ending) || !(← beginsOperand) then return found else refuse
  if calls then call
  else if pending = .assertion then instantiation
  else firstOf [instantiation, comparison]

/-! ## Steps -/

def optionalStep (g : Grammar) (left : Node) : Reader Node := do
  let call : Reader Node := do
    if !isPrimary left.kind then refuse
    nodeAfter .callExpression (left.withRole .callee) do
      mark "?."
      g.callTail
  let subscript : Reader Node :=
    nodeAfter .subscriptExpression (left.withRole .object) do
      mark "?."
      single g.index
  let property : Reader Node :=
    nodeAfter .memberExpression (left.withRole .object) (single (memberName "?."))
  firstOf [property, subscript, call]

/-- A step by a mark that hardly anything waiting keeps from its operand. -/
def markStep? (g : Grammar) (pending : Pending) (refused : Bool) (left : Node)
    (operator : String) : Option (Reader Node) :=
  if operator = "." then
    some (nodeAfter .memberExpression (left.withRole .object) (single (memberName ".")))
  else if operator = "?." then some (g.optionalStep left)
  else if operator = "[" then
    some (nodeAfter .subscriptExpression (left.withRole .object) (single g.index))
  else if operator = "(" && !(pending = .place && refused) &&
      pending.yieldsToCall (isPrimary left.kind) then
    some (nodeAfter .callExpression (left.withRole .callee) g.callTail)
  else if operator = "!" && pending.yieldsToCasts (isPrimary left.kind) then
    some <| nodeAfter .nonNullExpression left do
      mark "!"
      return []
  else if (operator = "++" || operator = "--") && pending.yieldsToStep then
    some <| nodeAfter .updateExpression left do
      mark operator
      return []
  else none

def templateStep (g : Grammar) (left : Node) : Reader Node :=
  nodeAfter .callExpression (left.withRole .callee)
    (single (inRole .arguments g.templateString))

/-- An operand as of some type.  Of a dotted name in the type only the first two parts belong to it
if the rest can be members taken from the whole, unless the whole would then be no more than a place
where a pattern may stand. -/
def cast (g : Grammar) (pending : Pending) (ending : Ending) (continued : Node → Reader Node)
    (operator : String) (left : Node) : Reader Node := do
  let constant : Reader Node := do
    if operator ≠ "as" || !(← wordIs "const") then refuse
    let found ← named .constType
    if ← wordIs "extends" then refuse else return found
  let toType (ending : Ending) : Reader Node :=
    nodeAfter (if operator = "as" then .asExpression else .satisfiesExpression) left do
      keyword operator
      single (firstOf [constant, g.type ending])
  let before ← get
  let found ← toType ending.withMembers
  if !isOneOf [".", "?."] (← Reader.operator) then return found
  let whole := toType ending.withOperators
  let mayBind := ending.mayBind && pending = .nothing
  let further : Reader Node := do
    let further ← continued found
    let isPlace := further.kind = .memberExpression || further.kind = .subscriptExpression
    if (← wordIs "extends") || mayBind && isPlace && (whole before).isSome then refuse
    return further
  match ← optional? further with
  | some further => return further
  | none =>
    set before
    whole

def stepOperator : Reader String := do
  match ← operator with
  | [] => return String.ofList (← wordAhead)
  | mark => return String.ofList mark

def conditionFollows : Reader Bool := do
  let input ← get
  return asksCondition (← ahead) && standsPlainly (input.rest.length + 1) input.rest

/-- The step by which an operand is extended here, if there is one.  It must then succeed. -/
def operandStep? (g : Grammar) (pending : Pending) (ending : Ending)
    (continued : Node → Reader Node) (left : Node) : Reader (Option (Reader Node)) := do
  if ← nextIs '\x60' then
    let mayTag := isPrimary left.kind || left.kind = .newExpression
    return if mayTag then some (g.templateStep left) else none
  let operator ← stepOperator
  match binaryOperator? operator with
  | some waiting =>
    let loops := operator = "in" && pending = .nothing && ending.inFollows
    let joins := pending.yieldsTo waiting && !loops
    return if joins then some (g.binary waiting operator ending left) else none
  | none =>
    if operator = "as" || operator = "satisfies" then
      let casts := pending.yieldsToCasts (isPrimary left.kind)
      return if casts then some (g.cast pending ending continued operator left) else none
    else if operator = "<" then
      let isBase ← if pending = .heritage then g.endsBase else pure false
      let step := g.angleStep pending ending continued left
      let mayOpen := pending.yieldsToAngle && !isBase
      let opens ← if pending = .assertion then test step else pure mayOpen
      return if opens then some step else none
    else if operator = "?" then
      let asks := pending.isLoose && (← conditionFollows)
      return if asks then some (g.ternary ending left) else none
    else if operator = "=" then
      let assigns := pending.yieldsToAssignment && isAssignable left.kind
      return if assigns then some (g.assigned .assignmentExpression operator ending left) else none
    else if assignmentMarks.contains operator then
      let assigns := pending.yieldsToAssignment && isChangeable left.kind
      return if assigns then
        some (g.assigned .augmentedAssignmentExpression operator ending left) else none
    else return g.markStep? pending (← get).refused left operator

def operandSteps (g : Grammar) (pending : Pending) (ending : Ending) : Nat → Node → Reader Node
  | 0, left => return left
  | fuel + 1, left => do
    if ← endsHere ending then return left
    match ← g.operandStep? pending ending (g.operandSteps pending ending fuel) left with
    | none => return left
    | some step => g.operandSteps pending ending fuel (← step)

def anyOperation (g : Grammar) (pending : Pending) (ending : Ending) : Reader Node := do
  let left ← g.operand pending ending
  g.operandSteps pending ending (← fuel) left

end ComponentSurvey.Syntax.Grammar
