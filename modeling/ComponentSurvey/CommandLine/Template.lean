/-!
# The settings file to begin with

It sets everything to its default and says what it is for.
-/

namespace ComponentSurvey.CommandLine

def settingsTemplateLines : List String := [
  "# archbase configuration",
  "",
  "[scanner]",
  "# Glob patterns a file must match, relative to the project root",
  "include = [\"**/*.tsx\", \"**/*.ts\", \"**/*.jsx\", \"**/*.js\"]",
  "",
  "# Glob patterns to exclude from analysis",
  "exclude = [",
  "    \"**/node_modules/**\",",
  "    \"**/dist/**\",",
  "    \"**/build/**\",",
  "    \"**/.git/**\",",
  "    \"**/coverage/**\",",
  "]",
  "",
  "# Descend into subdirectories",
  "deep = true",
  "",
  "# Respect .gitignore files",
  "respect_gitignore = true",
  "",
  "[migration]",
  "# Write <file>.backup before overwriting a migrated file",
  "backup = true",
  "",
  "# What to do with a file when one rule fails:",
  "#   \"keep-applied\"  keep edits from the rules that succeeded",
  "#   \"rollback-file\" leave the file untouched",
  "failure_policy = \"keep-applied\"",
  "",
  "# Rule configurations",
  "# Every rule is enabled unless disabled here",
  "",
  "[rules.datasource-v1-to-v2]",
  "enabled = true",
  "",
  "# [rules.form-validation-upgrade]",
  "# enabled = false",
  "",
  "# [rules.event-handler-upgrade]",
  "# enabled = false"]

def settingsTemplate : String := String.join (settingsTemplateLines.map fun line => line ++ "\n")

end ComponentSurvey.CommandLine
