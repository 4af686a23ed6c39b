import ComponentSurvey.Order.Grouping
import ComponentSurvey.Path.Basic
import ComponentSurvey.Patterns.Basic

/-!
# Grouping observations

The observations of all files are gone through once.  Everything that is met is added to its group,
so that the groups come in the order in which their first member is met, and so do the files of a
group.
-/

namespace ComponentSurvey

def contextWords : List (String × String) := [
  ("form", "forms"),
  ("page", "pages"),
  ("modal", "modals"),
  ("dashboard", "dashboard"),
  ("admin", "admin"),
  ("list", "lists")]

def contextsOf (file : String) : List String :=
  (contextWords.filter fun entry => Text.mentions (Text.lowerCase file) entry.1).map Prod.snd

namespace ComponentGroup

def fresh (component : String) : ComponentGroup := ⟨component, 0, [], [], []⟩

def add (member : String × Usage) (group : ComponentGroup) : ComponentGroup :=
  { group with
    count := group.count + 1
    props := Order.countTexts group.props (member.2.props.map GivenProp.name)
    tags := Order.addTexts group.tags member.2.patterns
    contexts := Order.addTexts group.contexts (contextsOf member.1) }

def gather (groups : List ComponentGroup) (member : String × Usage) : List ComponentGroup :=
  Order.addToGroup (fun group => group.component = member.2.name) (fresh member.2.name)
    (add member) groups

end ComponentGroup

namespace DataSourceGroup

def fresh (component : String) (generation : Generation) : DataSourceGroup :=
  ⟨component, generation, 0, [], [], []⟩

def add (member : String × Usage) (group : DataSourceGroup) : DataSourceGroup :=
  { group with
    count := group.count + 1
    props := Order.countTexts group.props (member.2.props.map GivenProp.name)
    tags := Order.addTexts group.tags member.2.patterns
    files := Order.appendNew Path.isSame group.files member.1 }

def gather (groups : List DataSourceGroup) (member : String × Usage) : List DataSourceGroup :=
  Order.addToGroup
    (fun group =>
      group.component = member.2.name && group.generation = member.2.generation)
    (fresh member.2.name member.2.generation) (add member) groups

end DataSourceGroup

structure FormShape where
  validation : Validation
  layout : String
  complexity : Complexity
deriving DecidableEq, Repr, Inhabited

def FormOccurrence.shape (form : FormOccurrence) : FormShape :=
  ⟨form.validation, form.layout, form.complexity⟩

namespace FormGroup

def shape (group : FormGroup) : FormShape := ⟨group.validation, group.layout, group.complexity⟩

def fresh (shape : FormShape) : FormGroup :=
  ⟨[], shape.validation, shape.layout, [], shape.complexity, 0, []⟩

def add (member : String × FormOccurrence) (group : FormGroup) : FormGroup :=
  { group with
    fieldTypes := Order.addTexts group.fieldTypes member.2.fieldTypes
    features := Order.addTexts group.features member.2.features
    count := group.count + 1
    files := Order.appendNew Path.isSame group.files member.1 }

end FormGroup

structure FormCollection where
  group : FormGroup
  forms : List (String × FormOccurrence)
deriving DecidableEq, Repr, Inhabited

namespace FormCollection

def fresh (shape : FormShape) : FormCollection := ⟨.fresh shape, []⟩

def add (member : String × FormOccurrence) (collection : FormCollection) : FormCollection :=
  ⟨collection.group.add member, collection.forms ++ [member]⟩

def gather (collections : List FormCollection) (member : String × FormOccurrence) :
    List FormCollection :=
  Order.addToGroup (fun collection => collection.group.shape = member.2.shape)
    (fresh member.2.shape) (add member) collections

end FormCollection

namespace SchemaGroup

def fresh (library : Validation) : SchemaGroup := ⟨library, [], 0, []⟩

def add (member : String × Validation × List String) (group : SchemaGroup) : SchemaGroup :=
  { group with
    rules := Order.addTexts group.rules member.2.2
    count := group.count + 1
    files := group.files ++ [member.1] }

def gather (groups : List SchemaGroup) (member : String × Validation × List String) :
    List SchemaGroup :=
  Order.addToGroup (fun group => group.library = member.2.1) (fresh member.2.1)
    (add member) groups

end SchemaGroup

namespace PageGroup

def fresh (layout : String) : PageGroup := ⟨layout, [], false, false, 0, []⟩

def add (member : String × PageObservation) (group : PageGroup) : PageGroup :=
  { group with
    sections := Order.addTexts group.sections member.2.sections
    navigation := group.navigation || member.2.navigation
    authentication := group.authentication || member.2.authentication
    count := group.count + 1
    files := Order.appendNew Path.isSame group.files member.1 }

def gather (groups : List PageGroup) (member : String × PageObservation) : List PageGroup :=
  Order.addToGroup (fun group => group.layout = member.2.layout) (fresh member.2.layout)
    (add member) groups

end PageGroup

structure Tally where
  dataSources : List DataSourceGroup
  components : List ComponentGroup
  forms : List FormCollection
  schemas : List SchemaGroup
  pages : List PageGroup
deriving DecidableEq, Repr, Inhabited

namespace Tally

def empty : Tally := ⟨[], [], [], [], []⟩

/-- A usage counts for its component and, if it has a data source, for the binding to it. -/
def addUsage (file : String) (tally : Tally) (usage : Usage) : Tally :=
  { tally with
    components := ComponentGroup.gather tally.components (file, usage)
    dataSources :=
      if usage.hasDataSource then DataSourceGroup.gather tally.dataSources (file, usage)
      else tally.dataSources }

def addForm (file : String) (tally : Tally) (form : FormOccurrence) : Tally :=
  { tally with forms := FormCollection.gather tally.forms (file, form) }

/-- A library that a file writes no rules with does not count. -/
def addSchema (file : String) (tally : Tally) (schema : Validation × List String) : Tally :=
  if schema.2.isEmpty then tally
  else { tally with schemas := SchemaGroup.gather tally.schemas (file, schema) }

def addPage (file : String) (tally : Tally) (page : PageObservation) : Tally :=
  { tally with pages := PageGroup.gather tally.pages (file, page) }

def addObservation (tally : Tally) (observation : FileObservation) : Tally :=
  let file := observation.file
  let withUsages := observation.usages.foldl (addUsage file) tally
  let withForms := observation.forms.foldl (addForm file) withUsages
  let withSchemas := observation.validation.foldl (addSchema file) withForms
  observation.page.toList.foldl (addPage file) withSchemas

def ofObservations (observations : List FileObservation) : Tally :=
  observations.foldl addObservation empty

end Tally

/-- The longest excerpt given as an example, in lines. -/
def excerptLimit : Nat := 12

def excerpt (code : String) : String :=
  "\n".intercalate (((Text.lines code.toList).take excerptLimit).map String.ofList)

namespace DetectedPattern

def ofForms (collection : FormCollection) : DetectedPattern :=
  let group := collection.group
  let library := group.validation.label
  let layout := group.layout
  { name := s!"form-{library}-{layout}-{group.complexity.label}"
    kind := .form
    count := group.count
    priority := .ofFrequency group.count
    files := group.files
    description := s!"{layout} form with {library} validation"
    template := s!"forms/{library}-{layout}.hbs"
    parameters := [
      ("complexity", .string group.complexity.label),
      ("fieldTypes", Json.strings group.fieldTypes),
      ("layout", .string layout),
      ("validation", .string library)]
    examples := (collection.forms.take 1).map fun member =>
      ⟨member.1, excerpt member.2.snippet, s!"{member.2.fieldTypes.length} field type(s)"⟩ }

def ofDataSource (group : DataSourceGroup) : DetectedPattern :=
  let generation := group.generation.label
  { name := s!"datasource-{generation}-{group.component}"
    kind := .component
    count := group.count
    priority := .ofFrequency group.count
    files := group.files
    description := s!"{group.component} bound to DataSource {generation}"
    template := s!"components/datasource-{generation}.hbs"
    parameters := [
      ("commonProps", Json.counts group.props),
      ("component", .string group.component),
      ("patterns", Json.strings group.tags),
      ("version", .string generation)]
    examples := [] }

def navigationLabel (navigation : Bool) : String := if navigation then "present" else "absent"

def ofPage (group : PageGroup) : DetectedPattern :=
  { name := s!"page-{group.layout}"
    kind := .page
    count := group.count
    priority := .ofFrequency group.count
    files := group.files
    description := s!"Page with {group.layout} layout"
    template := s!"pages/{group.layout}.hbs"
    parameters := [
      ("authentication", .bool group.authentication),
      ("layout", .string group.layout),
      ("navigation", .string (navigationLabel group.navigation)),
      ("sections", Json.strings group.sections)]
    examples := [] }

end DetectedPattern

/-- Groups that are large enough are patterns: forms first, then data sources, then pages. -/
def Findings.ofObservations (observations : List FileObservation) (failures : List FileFailure) :
    Findings :=
  let tally := Tally.ofObservations observations
  { filesAnalyzed := observations.length
    failures := failures
    patterns :=
      ((tally.forms.filter fun collection => formPatternMinimum ≤ collection.group.count).map
        .ofForms) ++
      ((tally.dataSources.filter fun group => dataSourcePatternMinimum ≤ group.count).map
        .ofDataSource) ++
      (tally.pages.filter fun group => pagePatternMinimum ≤ group.count).map .ofPage
    dataSources := tally.dataSources
    forms := tally.forms.map FormCollection.group
    components := tally.components
    schemas := tally.schemas
    pages := tally.pages }

end ComponentSurvey
