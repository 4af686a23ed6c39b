import ComponentSurvey.Facts.Binding
import ComponentSurvey.Migration.Edit
import ComponentSurvey.Migration.Outcome

/-!
# Upgrading data sources

The factories of the first generation are renamed where they are imported and where they are
referred to; attributes and statements that only force an update go, because data sources of the
second generation update by themselves.
-/

namespace ComponentSurvey

open Syntax Text

namespace DataSourceUpgrade

def factoryRenames : List (String × String) := [
  ("ArchbaseDataSource", "ArchbaseRemoteDataSource"),
  ("useArchbaseDataSource", "useArchbaseRemoteDataSource")]

def renamed? (name : String) : Option String :=
  (factoryRenames.find? fun entry => entry.1 = name).map Prod.snd

def updateMethod : String := "forceUpdate"

def setterMethod : String := "setFieldValue"

def replacement (document : Document) (node : Node) (text : String) (description : String) :
    Edit :=
  { start := node.start
    stop := node.stop
    replacement := text.toList
    change :=
      ⟨.replace, description, some (document.position node), some (document.text node),
        some text⟩ }

def removal (document : Document) (node : Node) (start stop : Nat) (description : String) : Edit :=
  { start := start
    stop := stop
    replacement := []
    change :=
      ⟨.remove, description, some (document.position node), some (document.text node), none⟩ }

structure FactoryImport where
  name : Node
  old : String
  new : String
  line : Nat
  isAliased : Bool
deriving Repr, Inhabited

def factoryImport? (document : Document) (specifier : Site) : Option FactoryImport := do
  let statement ← specifier.ancestors.find? fun node => node.kind = .importStatement
  let name ← specifier.node.child? .name
  let old := document.text name
  let new ← renamed? old
  let source ← statement.child? .source
  if Library.isLibraryModule (document.stringValue source) then
    some ⟨name, old, new, document.line statement, (specifier.node.child? .otherName).isSome⟩
  else none

def isAlreadyImported (imports : Imports) (name : String) : Bool :=
  imports.bindings.any fun binding => binding.isLibrary && binding.exportedName = name

def factoryImports (document : Document) : List FactoryImport :=
  (document.sitesOfKind .importSpecifier).filterMap (factoryImport? document)

/-- The imports that are renamed: those whose successor is not imported yet. -/
def renamedImports (document : Document) (imports : Imports) : List FactoryImport :=
  (factoryImports document).filter fun entry => !isAlreadyImported imports entry.new

def importEdits (document : Document) (imports : Imports) : List Edit :=
  (renamedImports document imports).map fun entry =>
    replacement document entry.name entry.new s!"Updated import from {entry.old} to {entry.new}"

def importWarnings (document : Document) (imports : Imports) : List String :=
  ((factoryImports document).filter fun entry => isAlreadyImported imports entry.new).map
    fun entry =>
      s!"{entry.new} is already imported at line {entry.line}; {entry.old} was left in place"

/-- The local names that an import gave and that are gone once it is renamed. -/
def renamedLocals (document : Document) (imports : Imports) : List String :=
  ((renamedImports document imports).filter fun entry => !entry.isAliased).map FactoryImport.old

def dottedParts? (node : Node) : Option (Node × Node) :=
  match node.kind with
  | .memberExpression => do return (← node.child? .object, ← node.child? .property)
  | .nestedTypeIdentifier => do return (← node.child? .qualifier, ← node.child? .name)
  | _ => none

def namesLibrary (document : Document) (imports : Imports) (node : Node) : Bool :=
  (imports.resolve? (document.text node)).any fun binding =>
    binding.isLibrary && binding.isNamespace

def referenceEdit? (document : Document) (imports : Imports) (locals : List String)
    (site : Site) : Option Edit :=
  let rename (node : Node) (old : String) : Option Edit :=
    (renamed? old).map fun new =>
      replacement document node new s!"Renamed {old} reference to {new}"
  match site.node.kind with
  | .identifier | .typeIdentifier =>
    let text := document.text site.node
    let isSpecified := site.parent?.any fun parent => parent.kind = .importSpecifier
    if locals.contains text && !isSpecified then rename site.node text else none
  | _ => do
    let (object, property) ← dottedParts? site.node
    if namesLibrary document imports object then rename property (document.text property)
    else none

def referenceEdits (document : Document) (imports : Imports) : List Edit :=
  document.sites.filterMap
    (referenceEdit? document imports (renamedLocals document imports))

def blankStart (source : List Char) (offset : Nat) : Nat :=
  offset - byteLength ((takeBytes offset source).reverse.takeWhile isAsciiBlank)

def attributeEdit? (document : Document) (attr : Node) : Option Edit := do
  let name ← attr.namedChildren.head?
  if document.text name = updateMethod then
    some (removal document attr (blankStart document.source attr.start) attr.stop
      "Removed forceUpdate prop (no longer needed in V2)")
  else none

def attributeEdits (document : Document) : List Edit :=
  (document.nodesOfKind .jsxAttribute).filterMap (attributeEdit? document)

/-- Whether a statement stands in a list of statements and can be left out. -/
def isListed (parent : Node) : Bool :=
  match parent.kind with
  | .program | .statementBlock | .switchCase | .switchDefault => true
  | _ => false

/-- The span of a node, widened to whole lines when nothing else stands on them. -/
def lineSpan (source : List Char) (node : Node) : Nat × Nat :=
  let before := (takeBytes node.start source).reverse.takeWhile fun c => c ≠ '\n'
  let after := dropBytes node.stop source
  let restOfLine := after.takeWhile fun c => c ≠ '\n'
  let lineEnd := (after.drop restOfLine.length).take 1
  if before.all (fun c => c = ' ' || c = '\t') && restOfLine.all isBlank then
    (node.start - byteLength before, node.stop + byteLength (restOfLine ++ lineEnd))
  else (node.start, node.stop)

inductive CallPlan
  | edit (planned : Edit)
  | warning (message : String)
deriving DecidableEq, Repr, Inhabited

namespace CallPlan

def edit? : CallPlan → Option Edit
  | .edit planned => some planned
  | .warning _ => none

def warning? : CallPlan → Option String
  | .edit _ => none
  | .warning message => some message

end CallPlan

def updateRemoved : String := "Removed forceUpdate() call (automatic in V2)"

def usedUpdateWarning (line : Nat) : String :=
  s!"forceUpdate() at line {line} is used as a value and was not removed"

def setterWarning (line : Nat) : String :=
  s!"setFieldValue call at line {line} should be reviewed for V2 reactive patterns"

/-- A call that forces an update goes with its statement; where the syntax asks for a statement an
empty block takes its place.  A call whose value is used stays. -/
def updatePlan (document : Document) (call : Site) : CallPlan :=
  match call.ancestors with
  | statement :: above =>
    if statement.kind ≠ .expressionStatement then
      .warning (usedUpdateWarning (document.line call.node))
    else if above.head?.any isListed then
      let (start, stop) := lineSpan document.source statement
      .edit (removal document statement start stop updateRemoved)
    else
      let edit := removal document statement statement.start statement.stop updateRemoved
      let block := "\x7b\x7d"
      .edit { edit with
        replacement := block.toList
        change := { edit.change with after := some block } }
  | [] =>
    .warning (usedUpdateWarning (document.line call.node))

def callPlan? (document : Document) (call : Site) : Option CallPlan := do
  let callee ← call.node.child? .callee
  if callee.kind ≠ .memberExpression then none
  else
    let object ← callee.child? .object
    let property ← callee.child? .property
    let method := document.text property
    if method = updateMethod then
      if object.kind = .thisKeyword then none else some (updatePlan document call)
    else if method = setterMethod then
      some (.warning (setterWarning (document.line call.node)))
    else none

def callPlans (document : Document) : List CallPlan :=
  (document.sitesOfKind .callExpression).filterMap (callPlan? document)

def edits (document : Document) (imports : Imports) : List Edit :=
  importEdits document imports ++ referenceEdits document imports ++ attributeEdits document ++
    (callPlans document).filterMap CallPlan.edit?

def warnings (document : Document) (imports : Imports) : List String :=
  importWarnings document imports ++ (callPlans document).filterMap CallPlan.warning?

def ofDocument (document : Document) : Outcome RuleError :=
  let imports := Imports.ofDocument document
  let (code, changes) := applyEdits document.source (edits document imports)
  .success code changes (warnings document imports)

/-- Upgrades a text; one that does not parse is left alone. -/
def run (path : String) (source : List Char) : Outcome RuleError :=
  match Document.ofComponentFile? path source with
  | some document => ofDocument document
  | none => .failure (.unparsed path)

end DataSourceUpgrade

end ComponentSurvey
