import ComponentSurvey.Syntax.Lexical
import ComponentSurvey.Syntax.Node

/-!
# Readers

A reader consumes the text ahead and answers a value, or refuses.  Blanks and comments are passed
over before every token, and the comments are kept aside: `Node.withComments` later puts each of
them into the smallest node that has a token on both sides of it.
-/

namespace ComponentSurvey.Syntax

open Text

inductive Dialect
  | typesOnly | markup
deriving DecidableEq, Repr, Inhabited

/-- The text ahead, its byte offset, and the comments passed so far, the last one first. -/
structure Input where
  rest : List Char
  offset : Nat
  comments : List Node
  dialect : Dialect
  /-- Whether the last token closed something that a semicolon may still follow. -/
  closed : Bool := false
  /-- Whether the text was refused as an expression before it is read as a pattern.  A place in it
  then neither begins with a parenthesis nor has arguments. -/
  refused : Bool := false
deriving Inhabited

abbrev Reader := StateT Input Option

namespace Input

def skip (input : Input) (passed rest : List Char) : Input :=
  { input with rest := rest, offset := input.offset + byteLength passed }

def skipSeparators (input : Input) : Input :=
  let passed := input.rest.takeWhile isSeparator
  input.skip passed (input.rest.drop passed.length)

def skipForm? (kind : Kind) (scan : List Char → Match) (input : Input) : Option Input :=
  match scan input.rest with
  | none => none
  | some (passed, rest) =>
    let after := input.skip passed rest
    some { after with comments := .mk kind none input.offset after.offset [] :: input.comments }

def skipComment? (input : Input) : Option Input := input.skipForm? .comment scanComment

def skipBlanks : Nat → Input → Input
  | 0, input => input
  | fuel + 1, input =>
    let next := input.skipSeparators
    match next.skipComment? with
    | some after => skipBlanks fuel after
    | none => next

def skipOpening : Nat → Input → Input
  | 0, input => input
  | fuel + 1, input =>
    let next := input.skipBlanks (input.rest.length + 1)
    match next.skipForm? .pageComment scanPageComment with
    | some after => skipOpening fuel after
    | none => next

/-- Steps past the comments of this line when the line then ends the statement. -/
def endOfLine? (ending : Ending) : Nat → Input → Option Input
  | 0, _ => none
  | fuel + 1, input =>
    if !ending.mayEnd then none
    else if lineEnds ending input.rest then some input
    else
      match input.skipSeparators.skipComment? with
      | some after => endOfLine? ending fuel after
      | none => none

end Input

namespace Reader

def refuse {α : Type} : Reader α := fun _ => none

def blank : Reader Unit :=
  modify fun input => input.skipBlanks (input.rest.length + 1)

def opening : Reader Unit :=
  modify fun input => if input.closed then input else input.skipOpening (input.rest.length + 1)

def ahead : Reader (List Char) := do
  return ((← get).skipBlanks ((← get).rest.length + 1)).rest

def stop : Reader Nat := return (← get).offset

def start : Reader Nat := do
  blank
  stop

def nextIs (expected : Char) : Reader Bool := do
  return (← ahead).head? = some expected

def operator : Reader (List Char) := return operatorAhead (← ahead)

def operatorIs (expected : String) : Reader Bool := do
  return (← operator) = expected.toList

def wordAhead : Reader (List Char) := do
  return ((scanName (← ahead)).map Prod.fst).getD []

def wordIs (expected : String) : Reader Bool := do
  return (← wordAhead) = expected.toList

/-- The character after the name ahead, blanks aside. -/
def afterWord : Reader (List Char) := fun input =>
  let here := input.skipBlanks (input.rest.length + 1)
  match scanName here.rest with
  | none => some ([], input)
  | some (passed, rest) =>
    let after := here.skip passed rest
    some ((after.skipBlanks (rest.length + 1)).rest, input)

def arrowAhead : Reader Bool := do
  let rest := (← get).rest
  return (rest.zip (rest.drop 1)).contains ('=', '>')

def isMarkup : Reader Bool := return (← get).dialect = .markup

/-- Whether the statement ends here without a semicolon. -/
def endsHere (ending : Ending) : Reader Bool := do
  let input ← get
  return (input.endOfLine? ending (input.rest.length + 1)).isSome

/-- The form ahead, without any blank before it. -/
def immediate (scan : List Char → Match) : Reader (List Char) := fun input =>
  match scan input.rest with
  | none => none
  | some (passed, rest) => some (passed, { input.skip passed rest with closed := false })

def scanned (scan : List Char → Match) : Reader (List Char) := do
  blank
  immediate scan

def mark (expected : String) : Reader Unit := do
  let _ ← scanned fun text =>
    if startsWith expected.toList text then splitCount expected.length text else none

/-- Reads an operator that no longer operator begins with. -/
def exactly (expected : String) : Reader Unit := do
  if ← operatorIs expected then mark expected else refuse

def anyWord : Reader (List Char) := scanned scanName

def keyword (expected : String) : Reader Unit := do
  let word ← anyWord
  if word = expected.toList then pure () else refuse

def leaf (kind : Kind) (scan : List Char → Match) : Reader Node := do
  let first ← start
  let _ ← immediate scan
  return .mk kind none first (← stop) []

def named (kind : Kind) : Reader Node := leaf kind scanName

def wordNode (kind : Kind) (expected : String) : Reader Node := do
  let first ← start
  keyword expected
  return .mk kind none first (← stop) []

/-- Ends a statement: a semicolon, or a line end that stands for one. -/
def semicolon (ending : Ending) : Reader Unit := fun input =>
  match input.endOfLine? ending (input.rest.length + 1) with
  | some after => some ((), after)
  | none => mark ";" input

/-- After a closing brace the rest of a line that ends there belongs to what was closed. -/
def closedLine (ending : Ending) : Reader Unit := fun input =>
  match input.endOfLine? ending (input.rest.length + 1) with
  | some after => some ((), after)
  | none => some ((), { input with closed := true })

def optional? {α : Type} (reader : Reader α) : Reader (Option α) := fun input =>
  match reader input with
  | some (value, after) => some (some value, after)
  | none => some (none, input)

def optionally (reader : Reader (List Node)) : Reader (List Node) := do
  return (← optional? reader).getD []

def skipIf (reader : Reader Unit) : Reader Bool := do
  return (← optional? reader).isSome

def test {α : Type} (reader : Reader α) : Reader Bool := fun input =>
  some ((reader input).isSome, input)

def single (reader : Reader Node) : Reader (List Node) := return [← reader]

def repeated {α : Type} : Nat → Reader α → Reader (List α)
  | 0, _ => return []
  | fuel + 1, reader => fun input =>
    match reader input with
    | none => some ([], input)
    | some (value, after) => ((value :: ·) <$> repeated fuel reader) after

def fuel : Reader Nat := return (← get).rest.length + 1

def many {α : Type} (reader : Reader α) : Reader (List α) := do
  repeated (← fuel) reader

/-- One for every opening there is, up to a limit; an opening alone is refused. -/
def repeatedAfter {α : Type} : Nat → Reader Unit → Reader α → Reader (List α)
  | 0, _, _ => return []
  | fuel + 1, opening, reader => do
    if ← skipIf opening then
      let value ← reader
      return value :: (← repeatedAfter fuel opening reader)
    else return []

def manyAfter {α : Type} (opening : Reader Unit) (reader : Reader α) : Reader (List α) := do
  repeatedAfter (← fuel) opening reader

/-- At least one, with commas between them. -/
def commaSeparated (reader : Reader Node) : Reader (List Node) := do
  let first ← reader
  let others ← many do
    mark ","
    reader
  return first :: others

/-- Any number, with commas between them and places left empty.  The first is read on its own. -/
def commaListFrom (first reader : Reader Node) : Reader (List Node) := do
  let first ← optionally (single first)
  let others ← many do
    mark ","
    optionally (single reader)
  return first ++ others.flatten

def commaList (reader : Reader Node) : Reader (List Node) := commaListFrom reader reader

def node (kind : Kind) (children : Reader (List Node)) : Reader Node := do
  let first ← start
  let nodes ← children
  return .mk kind none first (← stop) nodes

def nodeAfter (kind : Kind) (earlier : Node) (later : Reader (List Node)) : Reader Node := do
  let nodes ← later
  return .mk kind none earlier.start (← stop) (earlier :: nodes)

def inRole (role : Role) (reader : Reader Node) : Reader Node :=
  return (← reader).withRole role

/-- Reads with a given answer to whether the text was refused as an expression. -/
def havingRefused {α : Type} (refused : Bool) (reader : Reader α) : Reader α := do
  let before := (← get).refused
  modify fun input => { input with refused := refused }
  let value ← reader
  modify fun input => { input with refused := before }
  return value

def firstOf {α : Type} : List (Reader α) → Reader α
  | [] => refuse
  | reader :: others => fun input =>
    match reader input with
    | some answer => some answer
    | none => firstOf others input

end Reader

def splitComments (offset : Nat) (comments : List Node) : List Node × List Node :=
  (comments.takeWhile fun comment => comment.start < offset,
    comments.dropWhile fun comment => comment.start < offset)

mutual
/-- Distributes comments, given in order and all inside the node, over the node and its
descendants. -/
def Node.withComments (comments : List Node) : Node → Node
  | .mk kind role start stop children =>
    .mk kind role start stop (Node.mergeComments comments children)

def Node.mergeComments (comments : List Node) : List Node → List Node
  | [] => comments
  | node :: rest =>
    let (before, others) := splitComments node.start comments
    let (inside, after) := splitComments node.stop others
    before ++ node.withComments inside :: Node.mergeComments after rest
end

end ComponentSurvey.Syntax
