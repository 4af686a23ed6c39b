import ComponentSurvey.Settings.Basic
import ComponentSurvey.Toml.Document
import ComponentSurvey.Order.Insertion

/-!
# Settings in TOML

What is not set takes its default, and what is not known is passed over; a value of the wrong kind
is refused.
-/

namespace ComponentSurvey

namespace Toml

def string? : Toml → Option String
  | .string value => some value
  | _ => none

def boolean? : Toml → Option Bool
  | .boolean value => some value
  | _ => none

def strings? : Toml → Option (List String)
  | .array items => items.mapM string?
  | _ => none

/-- The fields of a record: by their names in a table, or by their order in an array. -/
def record? (names : List String) : Toml → Option Entries
  | .table _ entries => some entries
  | .array items => some (names.zip items)
  | .tables elements => some (names.zip (elements.map (.table .header)))
  | .dateTime _ => some []
  | _ => none

def field? {α : Type} (read : Toml → Option α) (fields : Entries) (name : String) (default : α) :
    Option α :=
  match fields.find? name with
  | none => some default
  | some value => read value

def isEmpty : Toml → Bool
  | .array items => items.isEmpty
  | .table _ entries => entries.isEmpty
  | .tables elements => elements.isEmpty
  | _ => false

/-- One of several labels: a string, or a table whose key is the label and whose value is empty.
Between braces there must be no other key. -/
def label? : Toml → Option String
  | .string value => some value
  | .table origin entries =>
    match entries with
    | [] => none
    | (name, value) :: others =>
      let isInline := origin = .inline || origin = .inlineDotted
      if value.isEmpty && (others.isEmpty || !isInline) then some name else none
  | _ => none

end Toml

namespace ScannerSettings

def ofToml? (toml : Toml) : Option ScannerSettings := do
  let fields ← toml.record? ["include", "exclude", "deep", "respect_gitignore"]
  return {
    included := ← Toml.field? Toml.strings? fields "include" defaultInclude
    excluded := ← Toml.field? Toml.strings? fields "exclude" defaultExclude
    deep := ← Toml.field? Toml.boolean? fields "deep" true
    respectIgnoreFiles := ← Toml.field? Toml.boolean? fields "respect_gitignore" true }

end ScannerSettings

namespace MigrationSettings

def ofToml? (toml : Toml) : Option MigrationSettings := do
  let fields ← toml.record? ["backup", "failure_policy"]
  return {
    backup := ← Toml.field? Toml.boolean? fields "backup" true
    failurePolicy := ←
      Toml.field? (fun value => value.label?.bind FailurePolicy.ofLabel?) fields "failure_policy"
        .keepApplied }

end MigrationSettings

namespace Settings

def ruleOfToml? (toml : Toml) : Option (Option Bool) := do
  let fields ← toml.record? ["enabled"]
  Toml.field? (fun value => value.boolean?.map some) fields "enabled" none

def rulesOfToml? : Toml → Option (List (String × Option Bool))
  | .table _ entries => do
    let rules ← entries.mapM fun entry => do
      return (entry.1, ← ruleOfToml? entry.2)
    return Order.sortBy (fun first second => decide (first.1 ≤ second.1)) rules
  | _ => none

def ofToml? (entries : Toml.Entries) : Option Settings := do
  return {
    scanner := ← Toml.field? ScannerSettings.ofToml? entries "scanner" default
    migration := ← Toml.field? MigrationSettings.ofToml? entries "migration" default
    rules := ← Toml.field? rulesOfToml? entries "rules" [] }

def parse? (text : List Char) : Option Settings := (Toml.parse? text).bind ofToml?

end Settings

end ComponentSurvey
