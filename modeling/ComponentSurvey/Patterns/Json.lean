import ComponentSurvey.Json.Parser
import ComponentSurvey.Json.Printer
import ComponentSurvey.Patterns.Grouping
import ComponentSurvey.Patterns.Recommendation
import ComponentSurvey.Survey.Basic

/-!
# Pattern reports as JSON
-/

namespace ComponentSurvey

open Json

def DataSourceGroup.toJson (group : DataSourceGroup) : Json :=
  .object [("component", .string group.component), ("version", .string group.generation.label),
    ("usageCount", Json.nat group.count), ("commonProps", counts group.props),
    ("patterns", strings group.tags), ("files", strings group.files)]

def FormGroup.toJson (group : FormGroup) : Json :=
  .object [("fieldTypes", strings group.fieldTypes),
    ("validationLibrary", .string group.validation.label), ("layout", .string group.layout),
    ("commonFeatures", strings group.features), ("complexity", .string group.complexity.label),
    ("frequency", Json.nat group.count), ("files", strings group.files)]

def ComponentGroup.toJson (group : ComponentGroup) : Json :=
  .object [("component", .string group.component), ("usageCount", Json.nat group.count),
    ("commonProps", counts group.props), ("patterns", strings group.tags),
    ("contexts", strings group.contexts)]

def SchemaGroup.toJson (group : SchemaGroup) : Json :=
  .object [("type", .string group.library.label), ("rules", strings group.rules),
    ("frequency", Json.nat group.count), ("examples", strings group.files)]

def PageGroup.toJson (group : PageGroup) : Json :=
  .object [("layout", .string group.layout), ("sections", strings group.sections),
    ("navigation", .string (DetectedPattern.navigationLabel group.navigation)),
    ("authentication", .bool group.authentication), ("frequency", Json.nat group.count),
    ("files", strings group.files)]

def PatternExample.toJson (sample : PatternExample) : Json :=
  .object [("file", .string sample.file), ("code", .string sample.code),
    ("description", .string sample.description)]

def DetectedPattern.toJson (pattern : DetectedPattern) : Json :=
  .object [("name", .string pattern.name), ("type", .string pattern.kind.label),
    ("frequency", Json.nat pattern.count), ("priority", .string pattern.priority.label),
    ("files", strings pattern.files), ("description", .string pattern.description),
    ("template", .string pattern.template), ("parameters", .object pattern.parameters),
    ("examples", .array (pattern.examples.map PatternExample.toJson))]

def Recommendation.toJson (recommendation : Recommendation) : Json :=
  .object [("id", .string recommendation.rule), ("type", .string recommendation.kind.label),
    ("title", .string recommendation.title),
    ("description", .string recommendation.description),
    ("priority", .string recommendation.priority.label),
    ("implementation", .string recommendation.implementation)]

def PatternReport.toJson (report : PatternReport) : Json :=
  let findings := report.findings
  .object [("schemaVersion", Json.nat schemaVersion),
    ("filesAnalyzed", Json.nat findings.filesAnalyzed),
    ("failures", .array (findings.failures.map FileFailure.toJson)),
    ("patterns", .array (findings.patterns.map DetectedPattern.toJson)),
    ("dataSourceUsage", .array (findings.dataSources.map DataSourceGroup.toJson)),
    ("formPatterns", .array (findings.forms.map FormGroup.toJson)),
    ("componentUsage", .array (findings.components.map ComponentGroup.toJson)),
    ("validationPatterns", .array (findings.schemas.map SchemaGroup.toJson)),
    ("pageStructures", .array (findings.pages.map PageGroup.toJson)),
    ("recommendations", .array (report.recommendations.map Recommendation.toJson))]

def DataSourceGroup.ofJson? (json : Json) : Option DataSourceGroup := do
  let members ← json.members?
  return {
    component := ← stringField? "component" members
    generation := ← (← stringField? "version" members) |> Generation.ofLabel?
    count := ← natField? "usageCount" members
    props := ← countsField? "commonProps" members
    tags := ← listField? string? "patterns" members
    files := ← listField? string? "files" members }

def FormGroup.ofJson? (json : Json) : Option FormGroup := do
  let members ← json.members?
  return {
    fieldTypes := ← listField? string? "fieldTypes" members
    validation := ← (← stringField? "validationLibrary" members) |> Validation.ofLabel?
    layout := ← stringField? "layout" members
    features := ← listField? string? "commonFeatures" members
    complexity := ← (← stringField? "complexity" members) |> Complexity.ofLabel?
    count := ← natField? "frequency" members
    files := ← listField? string? "files" members }

def ComponentGroup.ofJson? (json : Json) : Option ComponentGroup := do
  let members ← json.members?
  return {
    component := ← stringField? "component" members
    count := ← natField? "usageCount" members
    props := ← countsField? "commonProps" members
    tags := ← listField? string? "patterns" members
    contexts := ← listField? string? "contexts" members }

def SchemaGroup.ofJson? (json : Json) : Option SchemaGroup := do
  let members ← json.members?
  return {
    library := ← (← stringField? "type" members) |> Validation.ofLabel?
    rules := ← listField? string? "rules" members
    count := ← natField? "frequency" members
    files := ← listField? string? "examples" members }

def PageGroup.navigationOf? : String → Option Bool
  | "present" => some true
  | "absent" => some false
  | _ => none

def PageGroup.ofJson? (json : Json) : Option PageGroup := do
  let members ← json.members?
  return {
    layout := ← stringField? "layout" members
    sections := ← listField? string? "sections" members
    navigation := ← (← stringField? "navigation" members) |> PageGroup.navigationOf?
    authentication := ← boolField? "authentication" members
    count := ← natField? "frequency" members
    files := ← listField? string? "files" members }

def PatternExample.ofJson? (json : Json) : Option PatternExample := do
  let members ← json.members?
  return {
    file := ← stringField? "file" members
    code := ← stringField? "code" members
    description := ← stringField? "description" members }

def DetectedPattern.ofJson? (json : Json) : Option DetectedPattern := do
  let members ← json.members?
  return {
    name := ← stringField? "name" members
    kind := ← (← stringField? "type" members) |> PatternKind.ofLabel?
    count := ← natField? "frequency" members
    priority := ← (← stringField? "priority" members) |> Priority.ofLabel?
    files := ← listField? string? "files" members
    description := ← stringField? "description" members
    template := ← stringField? "template" members
    parameters := ← (member? "parameters" members).bind members?
    examples := ← listField? PatternExample.ofJson? "examples" members }

def Recommendation.ofJson? (json : Json) : Option Recommendation := do
  let members ← json.members?
  return {
    rule := ← stringField? "id" members
    kind := ← (← stringField? "type" members) |> RecommendationKind.ofLabel?
    title := ← stringField? "title" members
    description := ← stringField? "description" members
    priority := ← (← stringField? "priority" members) |> Priority.ofLabel?
    implementation := ← stringField? "implementation" members }

def PatternReport.ofJson? (json : Json) : Option PatternReport := do
  let members ← json.members?
  let findings : Findings := {
    filesAnalyzed := ← natField? "filesAnalyzed" members
    failures := ← listField? FileFailure.ofJson? "failures" members
    patterns := ← listField? DetectedPattern.ofJson? "patterns" members
    dataSources := ← listField? DataSourceGroup.ofJson? "dataSourceUsage" members
    forms := ← listField? FormGroup.ofJson? "formPatterns" members
    components := ← listField? ComponentGroup.ofJson? "componentUsage" members
    schemas := ← listField? SchemaGroup.ofJson? "validationPatterns" members
    pages := ← listField? PageGroup.ofJson? "pageStructures" members }
  return ⟨findings, ← listField? Recommendation.ofJson? "recommendations" members⟩

def PatternReport.text (report : PatternReport) : String := report.toJson.pretty

def PatternReport.ofText? (text : String) : Option PatternReport :=
  (Json.parse? text.toList).bind PatternReport.ofJson?

end ComponentSurvey
