import ComponentSurvey.Patterns.Grouping
import ComponentSurvey.Proofs.Order.Grouping
import ComponentSurvey.Proofs.Order.TextSet

/-!
# What the groups hold

Going through the observations once, with all groups growing side by side, comes to five separate
groupings: of the usages, the bound usages, the forms, the schemas and the pages of all files, each
by what the members of a group have in common.
-/

open ComponentSurvey.Order

namespace ComponentSurvey

/-! ## Members -/

section Members

variable {α : Type}

def inFile (file : String) (values : List α) : List (String × α) :=
  values.map fun value => (file, value)

def contributions (parts : FileObservation → List α) (observations : List FileObservation) :
    List (String × α) :=
  observations.flatMap fun observation => inFile observation.file (parts observation)

def filesOf (members : List (String × α)) : List String :=
  (members.map Prod.fst).eraseDupsBy Path.isSame

def unionOf (texts : String × α → List String) (members : List (String × α)) : List String :=
  textSet (members.flatMap texts)

def propCounts (members : List (String × Usage)) : List (String × Nat) :=
  occurrences (members.flatMap fun member => member.2.props.map GivenProp.name)

theorem contributions_cons (parts : FileObservation → List α) (observation : FileObservation)
    (rest : List FileObservation) :
    contributions parts (observation :: rest) =
      inFile observation.file (parts observation) ++ contributions parts rest :=
  List.flatMap_cons

theorem map_snd_contributions (parts : FileObservation → List α)
    (observations : List FileObservation) :
    (contributions parts observations).map Prod.snd = observations.flatMap parts := by
  simp [contributions, inFile, List.map_flatMap, Function.comp_def]

theorem map_key_contributions {κ : Type} (parts : FileObservation → List α) (key : α → κ)
    (observations : List FileObservation) :
    (contributions parts observations).map (fun member => key member.2) =
      observations.flatMap fun observation => (parts observation).map key := by
  rw [← List.map_flatMap, ← map_snd_contributions, List.map_map]
  rfl

theorem appendNew_filesOf (members : List (String × α)) (member : String × α) :
    appendNew Path.isSame (filesOf members) member.1 = filesOf (members ++ [member]) := by
  rw [filesOf, filesOf, ← distinctBy_eq_eraseDupsBy, ← distinctBy_eq_eraseDupsBy,
    List.map_append, List.map_singleton, distinctBy_concat]

theorem addTexts_unionOf (texts : String × α → List String) (members : List (String × α))
    (member : String × α) :
    addTexts (unionOf texts members) (texts member) = unionOf texts (members ++ [member]) := by
  rw [unionOf, unionOf, addTexts_textSet, List.flatMap_append, List.flatMap_singleton]

theorem countTexts_propCounts (members : List (String × Usage)) (member : String × Usage) :
    countTexts (propCounts members) (member.2.props.map GivenProp.name) =
      propCounts (members ++ [member]) := by
  rw [propCounts, propCounts, countTexts_occurrences, List.flatMap_append,
    List.flatMap_singleton]

end Members

/-! ## Families of groups -/

/-- The groups are the members put together by a key, and none of them is lost or counted twice. -/
structure Grouped {α κ γ : Type} [DecidableEq κ] (key : α → κ) (build : κ → List α → γ)
    (count : γ → Nat) (members : List α) (groups : List γ) : Prop where
  groups_eq : groups = (membersBy key members).map fun group => build group.1 group.2
  total_count : total count groups = members.length

namespace Grouped

variable {α κ γ : Type} [DecidableEq κ] {key : α → κ} {build : κ → List α → γ}
  {count : γ → Nat} {members : List α} {groups : List γ}

theorem of_eq (counts : ∀ shared members, count (build shared members) = members.length)
    (groups_eq : groups = (membersBy key members).map fun group => build group.1 group.2) :
    Grouped key build count members groups where
  groups_eq := groups_eq
  total_count := by
    rw [groups_eq, total_map]
    simp only [counts]
    exact (total_membersBy key (fun _ => true) members).trans (by simp)

end Grouped

/-! ## Groups of usages -/

namespace ComponentGroup

def ofMembers (component : String) (members : List (String × Usage)) : ComponentGroup :=
  { component := component
    count := members.length
    props := propCounts members
    tags := unionOf (fun member => member.2.patterns) members
    contexts := unionOf (fun member => contextsOf member.1) members }

theorem builds :
    Builds (fun member : String × Usage => member.2.name)
      (fun member group => decide (group.component = member.2.name))
      (fun member => fresh member.2.name) add ofMembers where
  isIts _ _ _ := rfl
  fresh _ := rfl
  add _ _ _ := by
    simp only [add, ofMembers, countTexts_propCounts, List.length_append, List.length_singleton,
      ← addTexts_unionOf]

theorem foldl_gather (members : List (String × Usage)) :
    members.foldl gather [] =
      (membersBy (fun member => member.2.name) members).map fun group =>
        ofMembers group.1 group.2 :=
  foldl_addToGroup builds members

end ComponentGroup

namespace DataSourceGroup

def ofMembers (bound : String × Generation) (members : List (String × Usage)) :
    DataSourceGroup :=
  { component := bound.1
    generation := bound.2
    count := members.length
    props := propCounts members
    tags := unionOf (fun member => member.2.patterns) members
    files := filesOf members }

theorem builds :
    Builds (fun member : String × Usage => (member.2.name, member.2.generation))
      (fun member group =>
        group.component = member.2.name && group.generation = member.2.generation)
      (fun member => fresh member.2.name member.2.generation) add ofMembers where
  isIts _ _ _ := by
    rw [Bool.eq_iff_iff]
    simp only [Bool.and_eq_true, decide_eq_true_eq, Prod.ext_iff]
    exact .rfl
  fresh _ := rfl
  add _ _ _ := by
    simp only [add, ofMembers, countTexts_propCounts, appendNew_filesOf, List.length_append,
      List.length_singleton, ← addTexts_unionOf]

theorem foldl_gather (members : List (String × Usage)) :
    members.foldl gather [] =
      (membersBy (fun member => (member.2.name, member.2.generation)) members).map fun group =>
        ofMembers group.1 group.2 :=
  foldl_addToGroup builds members

end DataSourceGroup

/-! ## Groups of forms -/

namespace FormGroup

def ofMembers (shape : FormShape) (members : List (String × FormOccurrence)) : FormGroup :=
  { fieldTypes := unionOf (fun member => member.2.fieldTypes) members
    validation := shape.validation
    layout := shape.layout
    features := unionOf (fun member => member.2.features) members
    complexity := shape.complexity
    count := members.length
    files := filesOf members }

theorem add_ofMembers (shape : FormShape) (members : List (String × FormOccurrence))
    (member : String × FormOccurrence) :
    add member (ofMembers shape members) = ofMembers shape (members ++ [member]) := by
  simp only [add, ofMembers, appendNew_filesOf, List.length_append, List.length_singleton,
    ← addTexts_unionOf]

end FormGroup

namespace FormCollection

def ofMembers (shape : FormShape) (members : List (String × FormOccurrence)) :
    FormCollection :=
  ⟨.ofMembers shape members, members⟩

theorem builds :
    Builds (fun member : String × FormOccurrence => member.2.shape)
      (fun member collection => decide (collection.group.shape = member.2.shape))
      (fun member => fresh member.2.shape) add ofMembers where
  isIts _ _ _ := rfl
  fresh _ := rfl
  add member shape members := by
    rw [add, ofMembers, FormGroup.add_ofMembers, ofMembers]

theorem foldl_gather (members : List (String × FormOccurrence)) :
    members.foldl gather [] =
      (membersBy (fun member => member.2.shape) members).map fun group =>
        ofMembers group.1 group.2 :=
  foldl_addToGroup builds members

end FormCollection

/-! ## Groups of schemas and pages -/

namespace SchemaGroup

def ofMembers (library : Validation) (members : List (String × Validation × List String)) :
    SchemaGroup :=
  { library := library
    rules := unionOf (fun member => member.2.2) members
    count := members.length
    files := members.map Prod.fst }

theorem builds :
    Builds (fun member : String × Validation × List String => member.2.1)
      (fun member group => decide (group.library = member.2.1))
      (fun member => fresh member.2.1) add ofMembers where
  isIts _ _ _ := rfl
  fresh _ := rfl
  add _ _ _ := by
    simp only [add, ofMembers, List.length_append, List.length_singleton, List.map_append,
      List.map_singleton, ← addTexts_unionOf]

theorem foldl_gather (members : List (String × Validation × List String)) :
    members.foldl gather [] =
      (membersBy (fun member => member.2.1) members).map fun group =>
        ofMembers group.1 group.2 :=
  foldl_addToGroup builds members

end SchemaGroup

namespace PageGroup

def ofMembers (layout : String) (members : List (String × PageObservation)) : PageGroup :=
  { layout := layout
    sections := unionOf (fun member => member.2.sections) members
    navigation := members.any fun member => member.2.navigation
    authentication := members.any fun member => member.2.authentication
    count := members.length
    files := filesOf members }

theorem builds :
    Builds (fun member : String × PageObservation => member.2.layout)
      (fun member group => decide (group.layout = member.2.layout))
      (fun member => fresh member.2.layout) add ofMembers where
  isIts _ _ _ := rfl
  fresh _ := rfl
  add _ _ _ := by
    simp only [add, ofMembers, appendNew_filesOf, List.length_append, List.length_singleton,
      List.any_append, List.any_cons, List.any_nil, Bool.or_false, ← addTexts_unionOf]

theorem foldl_gather (members : List (String × PageObservation)) :
    members.foldl gather [] =
      (membersBy (fun member => member.2.layout) members).map fun group =>
        ofMembers group.1 group.2 :=
  foldl_addToGroup builds members

end PageGroup

/-! ## One pass over all observations -/

namespace FileObservation

def boundUsages (observation : FileObservation) : List Usage :=
  observation.usages.filter Usage.hasDataSource

def writtenSchemas (observation : FileObservation) : List (Validation × List String) :=
  observation.validation.filter fun schema => !schema.2.isEmpty

end FileObservation

namespace Tally

theorem foldl_addUsage (file : String) (usages : List Usage) (tally : Tally) :
    usages.foldl (addUsage file) tally =
      { tally with
        components := (inFile file usages).foldl ComponentGroup.gather tally.components
        dataSources :=
          (inFile file (usages.filter Usage.hasDataSource)).foldl DataSourceGroup.gather
            tally.dataSources } := by
  induction usages generalizing tally with
  | nil => rfl
  | cons usage rest ih =>
      rw [List.foldl_cons, ih]
      cases bound : usage.hasDataSource <;> simp [addUsage, inFile, bound]

theorem foldl_addForm (file : String) (forms : List FormOccurrence) (tally : Tally) :
    forms.foldl (addForm file) tally =
      { tally with forms := (inFile file forms).foldl FormCollection.gather tally.forms } := by
  induction forms generalizing tally with
  | nil => rfl
  | cons form rest ih => rw [List.foldl_cons, ih]; rfl

theorem foldl_addSchema (file : String) (schemas : List (Validation × List String))
    (tally : Tally) :
    schemas.foldl (addSchema file) tally =
      { tally with
        schemas :=
          (inFile file (schemas.filter fun schema => !schema.2.isEmpty)).foldl
            SchemaGroup.gather tally.schemas } := by
  induction schemas generalizing tally with
  | nil => rfl
  | cons schema rest ih =>
      rw [List.foldl_cons, ih]
      cases empty : schema.2.isEmpty <;> simp [addSchema, inFile, empty]

theorem foldl_addPage (file : String) (pages : List PageObservation) (tally : Tally) :
    pages.foldl (addPage file) tally =
      { tally with pages := (inFile file pages).foldl PageGroup.gather tally.pages } := by
  induction pages generalizing tally with
  | nil => rfl
  | cons page rest ih => rw [List.foldl_cons, ih]; rfl

/-- No family of groups looks at what is added to another. -/
theorem foldl_addObservation (observations : List FileObservation) (tally : Tally) :
    observations.foldl addObservation tally =
      { components :=
          (contributions FileObservation.usages observations).foldl ComponentGroup.gather
            tally.components
        dataSources :=
          (contributions FileObservation.boundUsages observations).foldl DataSourceGroup.gather
            tally.dataSources
        forms :=
          (contributions FileObservation.forms observations).foldl FormCollection.gather
            tally.forms
        schemas :=
          (contributions FileObservation.writtenSchemas observations).foldl SchemaGroup.gather
            tally.schemas
        pages :=
          (contributions (fun observation => observation.page.toList) observations).foldl
            PageGroup.gather tally.pages } := by
  induction observations generalizing tally with
  | nil => rfl
  | cons observation rest ih =>
      rw [List.foldl_cons, ih]
      simp only [addObservation, foldl_addUsage, foldl_addForm, foldl_addSchema, foldl_addPage,
        contributions_cons, List.foldl_append, FileObservation.boundUsages,
        FileObservation.writtenSchemas]

theorem ofObservations_eq (observations : List FileObservation) :
    ofObservations observations =
      { components :=
          (membersBy (fun member => member.2.name)
            (contributions FileObservation.usages observations)).map fun group =>
              .ofMembers group.1 group.2
        dataSources :=
          (membersBy (fun member => (member.2.name, member.2.generation))
            (contributions FileObservation.boundUsages observations)).map fun group =>
              .ofMembers group.1 group.2
        forms :=
          (membersBy (fun member => member.2.shape)
            (contributions FileObservation.forms observations)).map fun group =>
              .ofMembers group.1 group.2
        schemas :=
          (membersBy (fun member => member.2.1)
            (contributions FileObservation.writtenSchemas observations)).map fun group =>
              .ofMembers group.1 group.2
        pages :=
          (membersBy (fun member => member.2.layout)
            (contributions (fun observation => observation.page.toList) observations)).map
              fun group => .ofMembers group.1 group.2 } := by
  simp only [ofObservations, foldl_addObservation, empty, ComponentGroup.foldl_gather,
    DataSourceGroup.foldl_gather, FormCollection.foldl_gather, SchemaGroup.foldl_gather,
    PageGroup.foldl_gather]

end Tally

/-! ## Findings -/

namespace Findings

theorem ofObservations_grouped (observations : List FileObservation)
    (failures : List FileFailure) :
    Grouped (fun member => member.2.name) ComponentGroup.ofMembers ComponentGroup.count
        (contributions FileObservation.usages observations)
        (ofObservations observations failures).components ∧
      Grouped (fun member => (member.2.name, member.2.generation)) DataSourceGroup.ofMembers
        DataSourceGroup.count (contributions FileObservation.boundUsages observations)
        (ofObservations observations failures).dataSources ∧
      Grouped (fun member => member.2.shape) FormGroup.ofMembers FormGroup.count
        (contributions FileObservation.forms observations)
        (ofObservations observations failures).forms ∧
      Grouped (fun member => member.2.1) SchemaGroup.ofMembers SchemaGroup.count
        (contributions FileObservation.writtenSchemas observations)
        (ofObservations observations failures).schemas ∧
      Grouped (fun member => member.2.layout) PageGroup.ofMembers PageGroup.count
        (contributions (fun observation => observation.page.toList) observations)
        (ofObservations observations failures).pages := by
  simp only [ofObservations, Tally.ofObservations_eq, List.map_map]
  refine ⟨.of_eq ?_ rfl, .of_eq ?_ rfl, .of_eq ?_ rfl, .of_eq ?_ rfl, .of_eq ?_ rfl⟩
  all_goals exact fun _ _ => rfl

theorem formCount_ofObservations (observations : List FileObservation)
    (failures : List FileFailure) (validation : Validation) :
    (ofObservations observations failures).formCount validation =
      (observations.flatMap FileObservation.forms).countP fun form =>
        form.validation = validation := by
  have members := total_membersBy (fun member : String × FormOccurrence => member.2.shape)
    (fun shape => shape.validation = validation)
    (contributions FileObservation.forms observations)
  rw [← map_snd_contributions, List.countP_map]
  refine Eq.trans ?_ members
  simp only [formCount, ofObservations, Tally.ofObservations_eq, List.map_map, total_filter,
    total_map]
  rfl

theorem bindsGeneration_ofObservations (observations : List FileObservation)
    (failures : List FileFailure) (generation : Generation) :
    (ofObservations observations failures).bindsGeneration generation =
      observations.any fun observation =>
        observation.boundUsages.any fun usage => usage.generation = generation := by
  rw [← List.any_flatMap, ← map_snd_contributions, List.any_map, bindsGeneration, ofObservations,
    Tally.ofObservations_eq, List.any_map]
  exact any_membersBy _ (fun bound : String × Generation => bound.2 = generation) _

theorem writesSchemas_ofObservations (observations : List FileObservation)
    (failures : List FileFailure) (library : Validation) :
    (ofObservations observations failures).writesSchemas library =
      observations.any fun observation =>
        observation.writtenSchemas.any fun schema => schema.1 = library := by
  rw [← List.any_flatMap, ← map_snd_contributions, List.any_map, writesSchemas, ofObservations,
    Tally.ofObservations_eq, List.any_map]
  exact any_membersBy _ (fun shared => shared = library) _

end Findings

end ComponentSurvey
