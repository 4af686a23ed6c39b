import ComponentSurvey.Json.Basic

/-!
# Settings

Which files a survey looks at, how a migration treats files whose rules fail, and which rules are
switched off.
-/

namespace ComponentSurvey

structure ScannerSettings where
  included : List String
  excluded : List String
  deep : Bool
  respectIgnoreFiles : Bool
deriving DecidableEq, Repr

namespace ScannerSettings

def defaultInclude : List String := ["**/*.tsx", "**/*.ts", "**/*.jsx", "**/*.js"]

def defaultExclude : List String :=
  ["**/node_modules/**", "**/dist/**", "**/build/**", "**/.git/**", "**/coverage/**"]

instance : Inhabited ScannerSettings := ⟨⟨defaultInclude, defaultExclude, true, true⟩⟩

def toJson (settings : ScannerSettings) : Json :=
  .object [("include", Json.strings settings.included), ("exclude", Json.strings settings.excluded),
    ("deep", .bool settings.deep), ("respect_gitignore", .bool settings.respectIgnoreFiles)]

end ScannerSettings

inductive FailurePolicy
  | keepApplied | rollbackFile
deriving DecidableEq, Repr, Inhabited

namespace FailurePolicy

def label : FailurePolicy → String
  | .keepApplied => "keep-applied"
  | .rollbackFile => "rollback-file"

def ofLabel? : String → Option FailurePolicy
  | "keep-applied" => some .keepApplied
  | "rollback-file" => some .rollbackFile
  | _ => none

end FailurePolicy

structure MigrationSettings where
  backup : Bool
  failurePolicy : FailurePolicy
deriving DecidableEq, Repr

namespace MigrationSettings

instance : Inhabited MigrationSettings := ⟨⟨true, .keepApplied⟩⟩

def toJson (settings : MigrationSettings) : Json :=
  .object [("backup", .bool settings.backup),
    ("failure_policy", .string settings.failurePolicy.label)]

end MigrationSettings

structure Settings where
  scanner : ScannerSettings
  migration : MigrationSettings
  /-- For a rule's id, whether it is enabled, in the order of the ids. -/
  rules : List (String × Option Bool)
deriving DecidableEq, Repr

namespace Settings

instance : Inhabited Settings := ⟨⟨default, default, []⟩⟩

def fileName : String := "archbase.toml"

def isRuleEnabled (settings : Settings) (id : String) : Bool :=
  (((settings.rules.find? fun entry => entry.1 = id).bind Prod.snd)).getD true

def toJson (settings : Settings) : Json :=
  .object [("scanner", settings.scanner.toJson), ("migration", settings.migration.toJson),
    ("rules", .object (settings.rules.map fun entry =>
      (entry.1, .object [("enabled", Json.orNull (entry.2.map .bool))])))]

end Settings

end ComponentSurvey
