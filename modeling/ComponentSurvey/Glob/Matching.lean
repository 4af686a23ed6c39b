import ComponentSurvey.Glob.Pattern
import ComponentSurvey.Path.Basic

/-!
# Matching glob patterns

Only two stars match the separator of a path.  A search ends early once the text runs out before
the tokens do, because no longer choice can help then.
-/

namespace ComponentSurvey.Glob

inductive MatchResult
  | matched
  | mismatch
  | exhausted
deriving DecidableEq, Repr, Inhabited

namespace Specifier

def contains (specifier : Specifier) (c : Char) : Bool :=
  match specifier with
  | single d => c = d
  | range first last => first ≤ c && c ≤ last

end Specifier

def isSeparator (c : Char) : Bool := c = '/'

namespace Token

def accepts (token : Token) (c : Char) : Bool :=
  match token with
  | char d => c = d
  | anyChar => !isSeparator c
  | within specifiers => !isSeparator c && specifiers.any fun specifier => specifier.contains c
  | except specifiers => !isSeparator c && !specifiers.any fun specifier => specifier.contains c
  | anySequence | anyParts => false

end Token

def spread (next : List Char → MatchResult) : List Char → MatchResult
  | [] => next []
  | c :: text =>
    match next (c :: text) with
    | .mismatch => if isSeparator c then .mismatch else spread next text
    | result => result

/-- Takes ever more parts for two stars: the rest of the pattern is tried after separators and at
the end. -/
def spreadParts (next : List Char → MatchResult) : List Char → MatchResult
  | [] => next []
  | c :: text =>
    if isSeparator c then
      match next text with
      | .mismatch => spreadParts next text
      | result => result
    else spreadParts next text

def matchTokens : List Token → List Char → MatchResult
  | [], text => if text.isEmpty then .matched else .mismatch
  | .anySequence :: rest, text => spread (matchTokens rest) text
  | .anyParts :: rest, text =>
    match matchTokens rest text with
    | .mismatch => spreadParts (matchTokens rest) text
    | result => result
  | token :: rest, text =>
    match text with
    | [] => .exhausted
    | c :: following => if token.accepts c then matchTokens rest following else .mismatch

namespace Pattern

def isMatch (pattern : Pattern) (text : List Char) : Bool :=
  matchTokens pattern.tokens text = .matched

end Pattern

def parseAll (patterns : List String) : Except PatternError (List Pattern) :=
  patterns.mapM Pattern.parse

def normalize (path : String) : List Char :=
  path.toList.map fun c => if c = '\\' then '/' else c

/-- A pattern without a separator may also match the file name alone. -/
def anyMatches (patterns : List Pattern) (path : String) : Bool :=
  let whole := normalize path
  let fileName := ((Path.fileName? path).getD "").toList
  patterns.any fun pattern =>
    pattern.isMatch whole || (!pattern.hasSeparator && pattern.isMatch fileName)

end ComponentSurvey.Glob
