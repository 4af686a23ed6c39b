import ComponentSurvey.Json.Parser
import ComponentSurvey.Survey.Dependencies

/-!
# Reading manifests

A manifest is an object of which two members count, or an array of these two.  Anything else in it
only has to be well formed.
-/

namespace ComponentSurvey.Manifest

open Text Scanner Json.Parser

def packages : Scanner (List (String × Json)) :=
  enclosed '\x7b' '\x7d' (pair string (value (nestingLimit - 2)))

inductive Member
  | dependencies (packages : List (String × Json))
  | developmentDependencies (packages : List (String × Json))
  | other
deriving Repr, Inhabited

namespace Member

def dependencies? : Member → Option (List (String × Json))
  | .dependencies packages => some packages
  | _ => none

def developmentDependencies? : Member → Option (List (String × Json))
  | .developmentDependencies packages => some packages
  | _ => none

end Member

def member : Scanner Member := do
  let name ← string
  mark ':'
  blanks
  if name = "dependencies" then return .dependencies (← packages)
  else if name = "devDependencies" then return .developmentDependencies (← packages)
  else
    skipped
    return .other

def atMostOne : List (List (String × Json)) → Option (List (String × Json))
  | [] => some []
  | [found] => some found
  | _ => none

def ofMembers? (members : List Member) : Option Manifest := do
  return ⟨← atMostOne (members.filterMap Member.dependencies?),
    ← atMostOne (members.filterMap Member.developmentDependencies?)⟩

def ofList? : List (List (String × Json)) → Option Manifest
  | [] => some ⟨[], []⟩
  | [dependencies] => some ⟨dependencies, []⟩
  | [dependencies, developmentDependencies] => some ⟨dependencies, developmentDependencies⟩
  | _ => none

def parse? (text : List Char) : Option Manifest :=
  let read : Scanner (Option Manifest) := firstOf [
    ofMembers? <$> enclosed '\x7b' '\x7d' member,
    ofList? <$> enclosed '[' ']' packages]
  (Json.Parser.whole? read text).join

end ComponentSurvey.Manifest
