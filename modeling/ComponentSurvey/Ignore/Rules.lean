import ComponentSurvey.Files.Tree
import ComponentSurvey.Ignore.Matching
import ComponentSurvey.Text.CharClass

/-!
# Ignore files

Each line of an ignore file is a rule about the paths below the directory that the file is for.  Of
the rules of a file the last one that matches decides; of several files the nearest one that has
something to say.
-/

namespace ComponentSurvey.Ignore

inductive Verdict
  | ignore | keep
deriving DecidableEq, Repr, Inhabited

structure Rule where
  tokens : List Token
  verdict : Verdict
  directoriesOnly : Bool
deriving Repr, Inhabited

namespace Rule

def trimmed (line : List Char) : List Char :=
  match line.reverse with
  | ' ' :: '\\' :: _ => line
  | reversed => (reversed.dropWhile Text.isBlank).reverse

/-- Takes a separator off the end, with a backslash before it. -/
def directoryPart (pattern : List Char) : List Char × Bool :=
  match pattern.reverse with
  | '/' :: '\\' :: rest => (rest.reverse, true)
  | '/' :: rest => (rest.reverse, true)
  | _ => (pattern, false)

def beginsWithAnyParts (pattern : List Char) : Bool :=
  pattern = ['*', '*'] || ['*', '*', '/'].isPrefixOf pattern

/-- A pattern without a separator matches at any depth. -/
def atAnyDepth (pattern : List Char) : List Char :=
  if pattern.contains '/' || beginsWithAnyParts pattern then pattern
  else ['*', '*', '/'] ++ pattern

/-- Two stars at the end match what is in a directory, but not the directory. -/
def inside (pattern : List Char) : List Char :=
  if ['*', '*', '/'].isPrefixOf pattern.reverse then pattern ++ ['/', '*'] else pattern

def ofPattern? (verdict : Verdict) (anchored : Bool) (pattern : List Char) : Option Rule :=
  let (body, directoriesOnly) := directoryPart pattern
  let placed := if anchored then body else atAnyDepth body
  (tokens? (inside placed)).map fun tokens => ⟨tokens, verdict, directoriesOnly⟩

/-- A separator in front ties a pattern to the directory of the file. -/
def ofAnchor? (verdict : Verdict) (pattern : List Char) : Option Rule :=
  match pattern with
  | '/' :: rest => ofPattern? verdict true rest
  | _ => ofPattern? verdict false pattern

/-- The rule of a line; blank lines, comments and malformed patterns are none. -/
def ofLine? (line : List Char) : Option Rule :=
  match line with
  | '#' :: _ => none
  | _ =>
    match trimmed line with
    | [] => none
    | '\\' :: '!' :: rest => ofPattern? .ignore false ('!' :: rest)
    | '\\' :: '#' :: rest => ofPattern? .ignore false ('#' :: rest)
    | '!' :: rest => ofAnchor? .keep rest
    | pattern => ofAnchor? .ignore pattern

def applies (rule : Rule) (path : List UInt8) (isDirectory : Bool) : Bool :=
  (isDirectory || !rule.directoriesOnly) && isMatch rule.tokens path

end Rule

def rulesOfLines : List (List Char) → List Rule
  | [] => []
  | first :: others =>
    ((first.dropWhile fun c => c = '\ufeff') :: others).filterMap Rule.ofLine?

def verdict? (rules : List Rule) (path : List UInt8) (isDirectory : Bool) : Option Verdict :=
  (rules.reverse.find? fun rule => rule.applies path isDirectory).map Rule.verdict

def rulesAt (tree : FileTree) (place : Place) : List Rule :=
  match tree.find? place with
  | some (.file content) => rulesOfLines content.lines
  | _ => []

/-- The directories around a place, the nearest first, with the way from there to the place. -/
def around (place : Place) : List (Place × Place) :=
  (List.range place.length).reverse.map fun count => (place.take count, place.drop count)

def pathBytes (place : Place) : List UInt8 :=
  (['/'].intercalate place).flatMap String.utf8EncodeChar

/-- Where the rules for a directory stand; those of the first file win over those of the second. -/
def ruleFiles : List Place :=
  [[".gitignore".toList], [".git".toList, "info".toList, "exclude".toList]]

def verdictOf? (tree : FileTree) (place : Place) (isDirectory : Bool) (file : Place) :
    Option Verdict :=
  (around place).findSome? fun directory =>
    verdict? (rulesAt tree (directory.1 ++ file)) (pathBytes directory.2) isDirectory

def isIgnored (tree : FileTree) (place : Place) : Bool :=
  let isDirectory := tree.find? place = some .directory
  ruleFiles.findSome? (verdictOf? tree place isDirectory) = some .ignore

/-- Whether a walk from a directory comes to a place: nothing on the way is ignored. -/
def isReached (tree : FileTree) (directory place : Place) : Bool :=
  (List.range (place.length - directory.length)).all fun count =>
    !isIgnored tree (place.take (directory.length + count + 1))

end ComponentSurvey.Ignore
