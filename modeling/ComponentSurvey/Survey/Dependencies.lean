import ComponentSurvey.Json.Basic
import ComponentSurvey.Library.Components

/-!
# Dependencies of a project

What the manifest of a project says about the library and the packages that go with it.
-/

namespace ComponentSurvey

structure DependencyReport where
  libraryVersion : Option String
  reactVersion : Option String
  missing : List String
  /-- Whether there is a manifest that could not be read. -/
  isUnreadable : Bool
deriving DecidableEq, Repr, Inhabited

structure Manifest where
  dependencies : List (String × Json)
  developmentDependencies : List (String × Json)
deriving DecidableEq, Repr, Inhabited

namespace Manifest

def fileName : String := "package.json"

def find? (manifest : Manifest) (package : String) : Option Json :=
  (Json.member? package manifest.dependencies).orElse fun _ =>
    Json.member? package manifest.developmentDependencies

def isDeclared (manifest : Manifest) (package : String) : Bool :=
  (manifest.find? package).isSome

end Manifest

namespace DependencyReport

def empty : DependencyReport := ⟨none, none, [], false⟩

def unreadable : DependencyReport := { empty with isUnreadable := true }

/-- A version that is not a text is left out. -/
def ofManifest (manifest : Manifest) : DependencyReport :=
  { libraryVersion := (manifest.find? Library.libraryModule).bind Json.string?
    reactVersion := (manifest.find? "react").bind Json.string?
    missing := Library.recommendedPackages.filter fun package => !manifest.isDeclared package
    isUnreadable := false }

def toJson (report : DependencyReport) : Json :=
  .object <|
    Json.optional "archbaseVersion" (report.libraryVersion.map .string) ++
    Json.optional "reactVersion" (report.reactVersion.map .string) ++
    [("missingDependencies", Json.strings report.missing),
      ("outdatedDependencies", .array [])] ++
    if report.isUnreadable then [("manifestError", .bool true)] else []

def ofJson? (json : Json) : Option DependencyReport := do
  let members ← json.members?
  return {
    libraryVersion := ← Json.optionalField? Json.string? "archbaseVersion" members
    reactVersion := ← Json.optionalField? Json.string? "reactVersion" members
    missing := ← Json.listField? Json.string? "missingDependencies" members
    isUnreadable := (Json.present? "manifestError" members).isSome }

end DependencyReport

end ComponentSurvey
