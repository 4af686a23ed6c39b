/-!
# Patterns of ignore files

A pattern is a list of tokens that match the bytes of a path.  Other than in the globs of settings
there are choices between braces, a backslash takes the next character as it is, and a bracket
that is never closed stands for itself.
-/

namespace ComponentSurvey.Ignore

inductive Token
  | literal (c : Char)
  | anyByte
  | anyRun
  | leadingParts
  | trailingParts
  /-- A separator, or any directories between two. -/
  | innerParts
  | within (negated : Bool) (ranges : List (Char × Char))
  /-- One of several patterns; no pattern at all matches nothing but the empty text. -/
  | choice (branches : List (List Token))
deriving Repr, Inhabited

inductive ClassReading
  | unclosed | malformed
  | closed (ranges : List (Char × Char)) (rest : List Char)
deriving Repr, Inhabited

/-- Reads the entries of a class up to the closing bracket, which is an entry itself if it stands
first.  A hyphen between two entries extends the first one. -/
def classRanges (first extending : Bool) (ranges : List (Char × Char)) :
    List Char → ClassReading
  | [] => .unclosed
  | c :: rest =>
    if c = ']' && !first then
      .closed (if extending then ('-', '-') :: ranges else ranges).reverse rest
    else if c = '-' && !first && !extending then classRanges false true ranges rest
    else if extending then
      match ranges with
      | (low, _) :: earlier =>
        if c < low then .malformed else classRanges false false ((low, c) :: earlier) rest
      | [] => .malformed
    else classRanges false false ((c, c) :: ranges) rest

def classReading (text : List Char) : Bool × ClassReading :=
  match text with
  | '!' :: rest | '^' :: rest => (true, classRanges true false [] rest)
  | _ => (false, classRanges true false [] text)

/-- A choice that is not closed yet: its finished branches, the last one first, and the tokens
before it, the last one first. -/
structure OpenChoice where
  finished : List (List Token)
  before : List Token
deriving Repr, Inhabited

/-- What has been read of a pattern: the tokens of the branch being read, the last one first, and
the choices around it. -/
structure Draft where
  tokens : List Token
  choices : List OpenChoice
  /-- Whether brackets stand for themselves, because one was never closed. -/
  plainBrackets : Bool
deriving Repr, Inhabited

namespace Draft

def push (draft : Draft) (token : Token) : Draft := { draft with tokens := token :: draft.tokens }

def begin : Draft := ⟨[], [], false⟩

def pushPlainBracket (draft : Draft) : Draft :=
  { draft.push (.literal '[') with plainBrackets := true }

def openChoice (draft : Draft) : Draft :=
  { draft with tokens := [], choices := ⟨[], draft.tokens⟩ :: draft.choices }

/-- A comma ends a branch, unless there is no choice. -/
def nextBranch (draft : Draft) : Draft :=
  match draft.choices with
  | [] => draft.push (.literal ',')
  | choice :: around =>
    { draft with
      tokens := []
      choices := { choice with finished := draft.tokens.reverse :: choice.finished } :: around }

def isVoid : Token → Bool
  | .choice [] => true
  | _ => false

/-- Branches without content do not count. -/
def closeChoice? (draft : Draft) : Option Draft :=
  match draft.choices with
  | [] => none
  | choice :: around =>
    let branches := (draft.tokens.reverse :: choice.finished).reverse
    some { draft with
      tokens := .choice (branches.filter fun branch => !branch.all isVoid) :: choice.before
      choices := around }

def finish? (draft : Draft) : Option (List Token) :=
  if draft.choices.isEmpty then some draft.tokens.reverse else none

def pushTwoRuns (draft : Draft) : Draft := (draft.push .anyRun).push .anyRun

def beginsPart (draft : Draft) (previous : Option Char) : Bool :=
  previous = some '/' ||
    (!draft.choices.isEmpty && (previous = some ',' || previous = some '{'))

def endsBranch (draft : Draft) (text : List Char) : Bool :=
  match text with
  | [] => true
  | c :: _ => (c = ',' || c = '}') && !draft.choices.isEmpty

/-- Two stars that make up a part take the place of what is before them. -/
def replaceLast (draft : Draft) (token : Token) : Draft :=
  match draft.tokens with
  | .leadingParts :: _ | .trailingParts :: _ => draft
  | _ :: earlier => { draft with tokens := token :: earlier }
  | [] => draft

/-- Reads two stars, after the character before them; answers what follows what was read. -/
def twoStars (draft : Draft) (previous : Option Char) (text : List Char) : Draft × List Char :=
  if draft.tokens.isEmpty then
    match text with
    | [] => (draft.push .leadingParts, [])
    | '/' :: rest => (draft.push .leadingParts, rest)
    | _ => (draft.pushTwoRuns, text)
  else if !draft.beginsPart previous then (draft.pushTwoRuns, text)
  else if draft.endsBranch text then (draft.replaceLast .trailingParts, text)
  else
    match text with
    | '/' :: rest => (draft.replaceLast .innerParts, rest)
    | _ => (draft.pushTwoRuns, text)

end Draft

def readTokens : Nat → Draft → Option Char → List Char → Option Draft
  | 0, draft, _, _ => some draft
  | _, draft, _, [] => some draft
  | fuel + 1, draft, previous, c :: rest =>
    match c with
    | '?' => readTokens fuel (draft.push .anyByte) (some c) rest
    | '*' =>
      match rest with
      | '*' :: after =>
        let (next, following) := draft.twoStars previous after
        let last := if following.length < after.length then '/' else '*'
        readTokens fuel next (some last) following
      | _ => readTokens fuel (draft.push .anyRun) (some c) rest
    | '[' =>
      if draft.plainBrackets then readTokens fuel draft.pushPlainBracket (some c) rest
      else
        match classReading rest with
        | (negated, .closed ranges after) =>
          readTokens fuel (draft.push (.within negated ranges)) (some ']') after
        | (_, .unclosed) => readTokens fuel draft.pushPlainBracket (some c) rest
        | (_, .malformed) => none
    | '{' => readTokens fuel draft.openChoice (some c) rest
    | '}' => draft.closeChoice?.bind fun next => readTokens fuel next (some c) rest
    | ',' => readTokens fuel draft.nextBranch (some c) rest
    | '\\' =>
      match rest with
      | [] => none
      | escaped :: after => readTokens fuel (draft.push (.literal escaped)) (some escaped) after
    | _ => readTokens fuel (draft.push (.literal c)) (some c) rest

/-- The tokens of a pattern, if it is well formed. -/
def tokens? (pattern : List Char) : Option (List Token) :=
  (readTokens pattern.length .begin none pattern).bind Draft.finish?

end ComponentSurvey.Ignore
