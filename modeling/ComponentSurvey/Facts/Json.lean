import ComponentSurvey.Facts.Basic

/-!
# Facts as JSON

The written form of usages and the reader of that form.  Optional members are left out when they
are not set; a member that is null counts as left out.
-/

namespace ComponentSurvey

open Json

def Issue.toJson (issue : Issue) : Json :=
  .object <|
    [("type", .string issue.severity.label), ("message", .string issue.message)] ++
    optional "fix" (issue.fix.map .string) ++
    optional "line" (issue.line.map Json.nat) ++
    optional "column" (issue.column.map Json.nat)

def GivenProp.toJson (prop : GivenProp) : Json :=
  .object <|
    [("name", .string prop.name), ("type", .string prop.kind.label)] ++
    optional "value" prop.value ++
    optional "isRequired" (prop.isRequired.map .bool)

def Usage.toJson (usage : Usage) : Json :=
  .object [
    ("name", .string usage.name),
    ("importPath", .string usage.importPath),
    ("importResolved", .bool usage.importResolved),
    ("file", .string usage.file),
    ("line", Json.nat usage.line),
    ("column", Json.nat usage.column),
    ("props", .array (usage.props.map GivenProp.toJson)),
    ("hasDataSource", .bool usage.hasDataSource),
    ("dataSourceVersion", .string usage.generation.label),
    ("patterns", strings usage.patterns),
    ("issues", .array (usage.issues.map Issue.toJson))]

def Issue.ofJson? (json : Json) : Option Issue := do
  let members ← json.members?
  return {
    severity := ← (← stringField? "type" members) |> Severity.ofLabel?
    message := ← stringField? "message" members
    fix := ← optionalField? string? "fix" members
    line := ← optionalField? nat? "line" members
    column := ← optionalField? nat? "column" members }

def GivenProp.ofJson? (json : Json) : Option GivenProp := do
  let members ← json.members?
  return {
    name := ← stringField? "name" members
    kind := ← (← stringField? "type" members) |> PropKind.ofLabel?
    value := present? "value" members
    isRequired := ← optionalField? bool? "isRequired" members }

def Usage.ofJson? (json : Json) : Option Usage := do
  let members ← json.members?
  return {
    name := ← stringField? "name" members
    importPath := ← stringField? "importPath" members
    importResolved := ← boolField? "importResolved" members
    file := ← stringField? "file" members
    line := ← natField? "line" members
    column := ← natField? "column" members
    props := ← listField? GivenProp.ofJson? "props" members
    hasDataSource := ← boolField? "hasDataSource" members
    generation := ← (← stringField? "dataSourceVersion" members) |> Generation.ofLabel?
    patterns := ← listField? string? "patterns" members
    issues := ← listField? Issue.ofJson? "issues" members }

end ComponentSurvey
