/-!
# Glob patterns

A pattern is a list of tokens.  Two stars stand for any number of directories and must make up a
whole part of a path.
-/

namespace ComponentSurvey.Glob

inductive Specifier
  | single (c : Char)
  | range (first last : Char)
deriving DecidableEq, Repr, Inhabited

inductive Token
  | char (c : Char)
  | anyChar
  /-- Any characters within one part of a path. -/
  | anySequence
  /-- Any parts of a path. -/
  | anyParts
  | within (specifiers : List Specifier)
  | except (specifiers : List Specifier)
deriving DecidableEq, Repr, Inhabited

inductive Reason
  | wildcards | recursiveWildcards | range
deriving DecidableEq, Repr, Inhabited

namespace Reason

def message : Reason → String
  | .wildcards => "wildcards are either regular \x60*\x60 or recursive \x60**\x60"
  | .recursiveWildcards => "recursive wildcards must form a single path component"
  | .range => "invalid range pattern"

end Reason

structure PatternError where
  /-- Counted in characters. -/
  position : Nat
  reason : Reason
deriving DecidableEq, Repr, Inhabited

namespace PatternError

def message (error : PatternError) : String :=
  s!"Pattern syntax error near position {error.position}: {error.reason.message}"

end PatternError

/-- The entries of a class: a hyphen between two characters makes a range. -/
def specifiers : List Char → List Specifier
  | first :: '-' :: last :: rest => .range first last :: specifiers rest
  | c :: rest => .single c :: specifiers rest
  | [] => []

/-- The content of a class and what follows it.  The first character never closes it. -/
def classContent? : List Char → Option (List Char × List Char)
  | [] => none
  | first :: more =>
    let content := more.takeWhile fun c => c ≠ ']'
    match more.drop content.length with
    | _ :: after => some (first :: content, after)
    | [] => none

def classToken? : List Char → Option (Token × List Char)
  | '!' :: body => (classContent? body).map fun found => (.except (specifiers found.1), found.2)
  | body => (classContent? body).map fun found => (.within (specifiers found.1), found.2)

def isSeparatorOrNone (c : Option Char) : Bool := c = none || c = some '/'

/-- Adds two stars to the tokens read so far, the last one first.  Of stars that follow each other
one is kept, unless they are the first of the pattern. -/
def addAnyParts : List Token → List Token
  | .anyParts :: previous :: earlier => .anyParts :: previous :: earlier
  | tokens => .anyParts :: tokens

/-- Reads on from a position, after a character and the tokens read so far, the last one first. -/
def tokensFrom :
    Nat → Nat → Option Char → List Token → List Char → Except PatternError (List Token)
  | 0, _, _, tokens, _ => .ok tokens.reverse
  | _, _, _, tokens, [] => .ok tokens.reverse
  | fuel + 1, position, previous, tokens, c :: rest =>
    if c = '?' then tokensFrom fuel (position + 1) (some c) (.anyChar :: tokens) rest
    else if c = '*' then
      let stars := (rest.takeWhile fun next => next = '*').length + 1
      let after := rest.drop (stars - 1)
      if stars = 1 then tokensFrom fuel (position + 1) (some c) (.anySequence :: tokens) after
      else if stars = 2 then
        if !isSeparatorOrNone previous then .error ⟨position - 1, .recursiveWildcards⟩
        else
          match after with
          | [] => tokensFrom fuel (position + 2) (some c) (addAnyParts tokens) []
          | '/' :: following =>
            tokensFrom fuel (position + 3) (some '/') (addAnyParts tokens) following
          | _ => .error ⟨position + 2, .recursiveWildcards⟩
      else .error ⟨position + 2, .wildcards⟩
    else if c = '[' then
      match classToken? rest with
      | some (token, after) =>
        tokensFrom fuel (position + 1 + (rest.length - after.length)) (some ']') (token :: tokens)
          after
      | none => .error ⟨position, .range⟩
    else tokensFrom fuel (position + 1) (some c) (.char c :: tokens) rest

structure Pattern where
  tokens : List Token
  hasSeparator : Bool
deriving DecidableEq, Repr, Inhabited

namespace Pattern

def parse (text : String) : Except PatternError Pattern := do
  let chars := text.toList
  return ⟨← tokensFrom chars.length 0 none [] chars, chars.contains '/'⟩

end Pattern

end ComponentSurvey.Glob
