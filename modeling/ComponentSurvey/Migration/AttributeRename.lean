import ComponentSurvey.Migration.Outcome
import ComponentSurvey.Syntax.Document

/-!
# Renaming attributes

Attributes are found in the syntax tree.  In a text that does not parse they are found by their
shape: white space, the name, an equals sign and what opens a value.
-/

namespace ComponentSurvey

open Syntax Text

structure AttributeRename where
  old : String
  new : String
deriving DecidableEq, Repr, Inhabited

structure Span where
  start : Nat
  stop : Nat
deriving DecidableEq, Repr, Inhabited

namespace AttributeRename

def description (rename : AttributeRename) : String :=
  s!"Updated {rename.old} to {rename.new}"

def attributeSpan? (document : Document) (name : String) (attr : Node) : Option Span := do
  let found ← attr.namedChildren.head?
  if found.kind = .propertyIdentifier && document.text found = name then
    some ⟨found.start, found.stop⟩
  else none

def attributeSpans (document : Document) (name : String) : List Span :=
  (document.nodesOfKind .jsxAttribute).filterMap (attributeSpan? document name)

def opensValue (c : Char) : Bool := c = '\x7b' || c = '"' || c = '\''

def rest? (start : List Char) (text : List Char) : Option (List Char) :=
  if start.isPrefixOf text then some (text.drop start.length) else none

/-- What follows an attribute that a text begins with: white space, the name, an equals sign and
the opening of a value. -/
def afterAttribute? (name : List Char) : List Char → Option (List Char)
  | [] => none
  | c :: text =>
    if !isBlank c then none
    else
      match (rest? name text).map fun found => found.dropWhile isBlank with
      | some ('=' :: value) =>
        match value.dropWhile isBlank with
        | opener :: after => if opensValue opener then some after else none
        | [] => none
      | _ => none

/-- The spans of a length, one character behind where something is found, from left to right.  What
follows a find is told by `after?`.  The first `covered` characters belong to a find before. -/
def foundSpans (after? : List Char → Option (List Char)) (length : Nat) :
    Nat → Nat → List Char → List Span
  | _, _, [] => []
  | offset, covered + 1, c :: rest => foundSpans after? length (offset + c.utf8Size) covered rest
  | offset, 0, c :: rest =>
    let start := offset + c.utf8Size
    match after? (c :: rest) with
    | some after =>
      ⟨start, start + length⟩ :: foundSpans after? length start (rest.length - after.length) rest
    | none => foundSpans after? length start 0 rest

def textSpans (name : List Char) (text : List Char) : List Span :=
  foundSpans (afterAttribute? name) (byteLength name) 0 0 text

def spans (rename : AttributeRename) (path : String) (code : List Char) : List Span :=
  match Document.ofComponentFile? path code with
  | some document => attributeSpans document rename.old
  | none => textSpans rename.old.toList code

def change (rename : AttributeRename) (code : List Char) (span : Span) : Change :=
  ⟨.replace, rename.description, some (lineColumn code span.start),
    some s!"{rename.old}=", some s!"{rename.new}="⟩

def perform (rename : AttributeRename) (code : List Char) (spans : List Span) : List Char :=
  spans.foldr (fun span text => replaceRange text span.start span.stop rename.new.toList) code

def apply (rename : AttributeRename) (path : String) (code : List Char) :
    List Char × List Change :=
  let found := rename.spans path code
  (rename.perform code found, found.map (rename.change code))

end AttributeRename

/-- Carries out renames one after the other, each on the text that the one before it left. -/
def applyRenames (renames : List AttributeRename) (path : String) (source : List Char) :
    Outcome RuleError :=
  let (code, changes) := renames.foldl
    (fun reached rename =>
      let (code, changes) := rename.apply path reached.1
      (code, reached.2 ++ changes))
    (source, [])
  .success code changes []

end ComponentSurvey
