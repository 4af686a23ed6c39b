import ComponentSurvey.Library.Components
import ComponentSurvey.Migration.AttributeRename
import ComponentSurvey.Migration.DataSourceUpgrade

/-!
# Migration rules

A rule transforms the text of a file on its own; it is run where one of its components is
mentioned.
-/

namespace ComponentSurvey

inductive Transform
  | attributeRenames (renames : List AttributeRename)
  | treeRewrite (rewrite : String → List Char → Outcome RuleError)

namespace Transform

def label : Transform → String
  | .attributeRenames _ => "text-pattern"
  | .treeRewrite _ => "ast-rewrite"

def run : Transform → String → List Char → Outcome RuleError
  | .attributeRenames renames => applyRenames renames
  | .treeRewrite rewrite => rewrite

end Transform

structure MigrationRule where
  id : String
  name : String
  description : String
  fromVersion : String
  toVersion : String
  components : List String
  transform : Transform

namespace MigrationRule

def targets (rule : MigrationRule) (component : String) : Bool :=
  rule.components.contains component

def isMentioned (rule : MigrationRule) (code : List Char) : Bool :=
  rule.components.any fun component => Text.mentions code component

def apply (rule : MigrationRule) (path : String) (source : List Char) : Outcome RuleError :=
  rule.transform.run path source

def dataSourceUpgrade : MigrationRule where
  id := "datasource-v1-to-v2"
  name := "DataSource V1 to V2 Migration"
  description := "Migrates from ArchbaseDataSource to ArchbaseRemoteDataSource"
  fromVersion := "1.x"
  toVersion := "2.x"
  components :=
    ["ArchbaseEdit", "ArchbaseSelect", "ArchbaseTextArea", "ArchbaseDataGrid",
      "ArchbaseDataSource"]
  transform := .treeRewrite DataSourceUpgrade.run

def formValidationUpgrade : MigrationRule where
  id := "form-validation-upgrade"
  name := "Form Validation Upgrade"
  description := "Updates form validation patterns to V2"
  fromVersion := "1.x"
  toVersion := "2.x"
  components := ["ArchbaseFormTemplate"]
  transform := .attributeRenames
    [⟨"validation", "validationRules"⟩, ⟨"onValidationError", "onValidationFailed"⟩]

def eventHandlerUpgrade : MigrationRule where
  id := "event-handler-upgrade"
  name := "Event Handler Upgrade"
  description := "Updates event handler patterns for V2"
  fromVersion := "1.x"
  toVersion := "2.x"
  components := ["ArchbaseDataGrid", "ArchbaseFormTemplate"]
  transform := .attributeRenames
    [⟨"onRowClick", "onRowSelect"⟩, ⟨"onCellClick", "onCellSelect"⟩]

def shipped : List MigrationRule :=
  [dataSourceUpgrade, formValidationUpgrade, eventHandlerUpgrade]

end MigrationRule

end ComponentSurvey
