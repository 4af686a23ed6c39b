import ComponentSurvey.CommandLine.Arguments

/-!
# Commands

The commands of the program and the arguments they are given by.
-/

namespace ComponentSurvey.CommandLine

inductive OutputFormat
  | text | json | compact
deriving DecidableEq, Repr, Inhabited

namespace OutputFormat

def labels : List String := ["text", "json", "compact"]

def ofLabel? : String → Option OutputFormat
  | "text" => some .text
  | "json" => some .json
  | "compact" => some .compact
  | _ => none

end OutputFormat

structure ScanRequest where
  path : String
  included : List String
  excluded : List String
  shallow : Bool
  format : OutputFormat
  report : Option String
deriving DecidableEq, Repr, Inhabited

structure AnalyzeRequest where
  path : String
  format : OutputFormat
  output : Option String
deriving DecidableEq, Repr, Inhabited

structure OutlookRequest where
  path : String
  component : Option String
  report : Option String
deriving DecidableEq, Repr, Inhabited

structure UpgradeRequest where
  path : String
  component : Option String
  dryRun : Bool
  withoutBackup : Bool
  included : List String
  excluded : List String
deriving DecidableEq, Repr, Inhabited

structure BatchRequest where
  path : String
  rules : Option String
  excludeComplex : Bool
  dryRun : Bool
  report : Option String
deriving DecidableEq, Repr, Inhabited

inductive Command
  | scan (request : ScanRequest)
  | analyze (request : AnalyzeRequest)
  | outlook (request : OutlookRequest)
  | upgrade (request : UpgradeRequest)
  | batch (request : BatchRequest)
  | listRules
  | begin (force : Bool)
deriving DecidableEq, Repr, Inhabited

structure Invocation where
  verbose : Bool
  settings : Option String
  command : Command
deriving DecidableEq, Repr, Inhabited

namespace Switch

def flag (name : String) (short : Option Char) : Switch := ⟨name, short, .nothing, false⟩

def shared : List Switch := [flag "verbose" (some 'v'), ⟨"config", some 'c', .path, false⟩]

def patternLists : List Switch :=
  [⟨"include", some 'i', .text, true⟩, ⟨"exclude", some 'e', .text, true⟩]

def format : Switch := ⟨"format", some 'f', .label OutputFormat.labels, false⟩

def component : Switch := ⟨"component", none, .text, false⟩

def report : Switch := ⟨"report", none, .path, false⟩

end Switch

namespace Given

def pathOrHere (given : Given) : String := given.path.getD "."

def format (given : Given) : OutputFormat :=
  ((given.value? "format").bind OutputFormat.ofLabel?).getD .text

end Given

/-- A command without subcommands, and how it is made from what is given. -/
structure Leaf where
  name : String
  switches : List Switch
  takesPath : Bool
  command : Given → Command

namespace Leaf

def level (leaf : Leaf) : Level :=
  ⟨Switch.shared ++ leaf.switches, [], leaf.takesPath, false⟩

def commands : List Leaf := [
  { name := "scan"
    switches :=
      Switch.patternLists ++ [Switch.flag "shallow" none, Switch.format, Switch.report]
    takesPath := true
    command := fun given => .scan
      { path := given.pathOrHere
        included := given.valuesOf "include"
        excluded := given.valuesOf "exclude"
        shallow := given.has "shallow"
        format := given.format
        report := given.value? "report" } },
  { name := "analyze"
    switches := [Switch.format, ⟨"output", some 'o', .path, false⟩]
    takesPath := true
    command := fun given => .analyze
      { path := given.pathOrHere
        format := given.format
        output := given.value? "output" } },
  { name := "list-rules", switches := [], takesPath := false, command := fun _ => .listRules },
  { name := "init"
    switches := [Switch.flag "force" none]
    takesPath := false
    command := fun given => .begin (given.has "force") }]

def migrationCommands : List Leaf := [
  { name := "analyze"
    switches := [Switch.component, Switch.report]
    takesPath := true
    command := fun given => .outlook
      { path := given.pathOrHere
        component := given.value? "component"
        report := given.value? "report" } },
  { name := "v1-to-v2"
    switches :=
      [Switch.component, Switch.flag "dry-run" none, Switch.flag "no-backup" none] ++
        Switch.patternLists
    takesPath := true
    command := fun given => .upgrade
      { path := given.pathOrHere
        component := given.value? "component"
        dryRun := given.has "dry-run"
        withoutBackup := given.has "no-backup"
        included := given.valuesOf "include"
        excluded := given.valuesOf "exclude" } },
  { name := "batch"
    switches :=
      [⟨"rules", none, .text, false⟩, Switch.flag "exclude-complex" none,
        Switch.flag "dry-run" none, Switch.report]
    takesPath := true
    command := fun given => .batch
      { path := given.pathOrHere
        rules := given.value? "rules"
        excludeComplex := given.has "exclude-complex"
        dryRun := given.has "dry-run"
        report := given.value? "report" } }]

end Leaf

namespace Level

def migration : Level :=
  ⟨Switch.shared, "help" :: Leaf.migrationCommands.map Leaf.name, false, false⟩

def top : Level :=
  ⟨Switch.shared, "help" :: "migrate" :: Leaf.commands.map Leaf.name, false, true⟩

end Level

/-- Help may be asked for about the program or about one of its commands. -/
def helpRefusal : List String → Refusal
  | [] => .help
  | ["migrate", name] => if Level.migration.subcommands.contains name then .help else .misuse
  | [name] => if Level.top.subcommands.contains name then .help else .misuse
  | _ => .misuse

def readLeaf (leaves : List Leaf) (name : String) (arguments : List String) :
    Except Refusal (Given × Command) :=
  match leaves.find? fun leaf => leaf.name = name with
  | none => .error .misuse
  | some leaf => do
    let (given, _) ← leaf.level.read .nothing arguments
    return (given, leaf.command given)

/-- What is given at all levels, the outermost first, and the command. -/
def readCommand (arguments : List String) : Except Refusal (List Given × Command) := do
  let (outer, next) ← Level.top.read .nothing arguments
  match next with
  | none => throw .misuse
  | some ("help", rest) => throw (helpRefusal rest)
  | some ("migrate", rest) =>
    let (middle, next) ← Level.migration.read .nothing rest
    match next with
    | none => throw .misuse
    | some ("help", rest) => throw (helpRefusal ("migrate" :: rest))
    | some (name, rest) =>
      let (inner, command) ← readLeaf Leaf.migrationCommands name rest
      return ([outer, middle, inner], command)
  | some (name, rest) =>
    let (inner, command) ← readLeaf Leaf.commands name rest
    return ([outer, inner], command)

namespace Command

def paths : Command → List String
  | scan request => request.path :: request.report.toList
  | analyze request => request.path :: request.output.toList
  | outlook request => request.path :: request.report.toList
  | upgrade request => [request.path]
  | batch request => request.path :: request.report.toList
  | listRules => []
  | begin _ => []

end Command

namespace Invocation

def paths (invocation : Invocation) : List String :=
  invocation.settings.toList ++ invocation.command.paths

/-- The settings file of the innermost level counts; the environment gives one to levels that have
none. -/
def read (environment : Option String) (arguments : List String) : Except Refusal Invocation := do
  let (levels, command) ← readCommand arguments
  let named := levels.filterMap fun given => given.value? "config"
  if environment = some "" && named.length < levels.length then throw .misuse
  return {
    verbose := levels.any fun given => given.has "verbose"
    settings := named.getLast?.or environment
    command := command }

end Invocation

end ComponentSurvey.CommandLine
