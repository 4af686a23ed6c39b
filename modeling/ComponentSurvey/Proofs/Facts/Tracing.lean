import ComponentSurvey.Proofs.Facts.Usages
import ComponentSurvey.Proofs.Syntax.Walk

/-!
# Which declaration a data source is traced to

A variable is traced by its name alone: to the first declaration of that name in the document which
leads to a factory.  A usage has the generation of the declaration in its own function if, and only
if, that first declaration has the same.
-/

namespace ComponentSurvey

open Syntax

def declaresName (document : Document) (name : String) (node : Node) : Bool :=
  node.kind = .variableDeclarator &&
    (node.child? .name).any fun pattern => bindsName document pattern name

def declaredGeneration? (document : Document) (imports : Imports) (declarator : Node) :
    Option Generation :=
  (declarator.child? .value).bind (initialGeneration? document imports (traceDepth + 1))

def tracedGenerations (document : Document) (imports : Imports) (name : String) :
    List Generation :=
  (document.nodes.filter (declaresName document name)).filterMap
    (declaredGeneration? document imports)

theorem variableGeneration?_eq_head? (document : Document) (imports : Imports) (name : String) :
    variableGeneration? document imports name =
      (tracedGenerations document imports name).head? := by
  rw [tracedGenerations, List.head?_filterMap]
  simp only [variableGeneration?, Document.nodesOfKind, Document.sitesOfKind, Document.nodes,
    List.filter_map, List.filter_filter, Function.comp_def, declaresName, Bool.and_comm]
  rfl

/-- The declarations of the name in a function, apart from those in functions inside it. -/
def localDeclarators (document : Document) (name : String) (function : Node) : List Node :=
  ((function.sites []).filter fun site =>
    declaresName document name site.node &&
      (site.ancestors.filter fun ancestor => ancestor.kind.isFunction).length = 1).map Site.node

/-- The nearest function around a site that declares the name. -/
def declaringFunction? (document : Document) (name : String) (site : Site) : Option Node :=
  site.ancestors.find? fun ancestor =>
    ancestor.kind.isFunction && !(localDeclarators document name ancestor).isEmpty

/-- The generation that the name has at a site by what the function around it declares. -/
def ownGeneration? (document : Document) (imports : Imports) (name : String) (site : Site) :
    Option Generation :=
  (declaringFunction? document name site).bind fun function =>
    (localDeclarators document name function).findSome? (declaredGeneration? document imports)

theorem mem_tracedGenerations_of_own {document : Document} {imports : Imports} {name : String}
    {site : Site} (visited : site ∈ document.sites) {generation : Generation}
    (own : ownGeneration? document imports name site = some generation) :
    generation ∈ tracedGenerations document imports name := by
  obtain ⟨function, declares, traced⟩ := Option.bind_eq_some_iff.mp own
  obtain ⟨declarator, listed, leads⟩ := List.exists_of_findSome?_eq_some traced
  obtain ⟨inner, found, rfl⟩ := List.mem_map.mp listed
  obtain ⟨inside, isLocal⟩ := List.mem_filter.mp found
  have around : function ∈ document.nodes :=
    Document.ancestor_mem_nodes visited (List.mem_of_find?_eq_some declares)
  have below : inner.node ∈ function.preorder := by
    rw [← map_node_sites function []]
    exact List.mem_map_of_mem inside
  have declared : declaresName document name inner.node = true :=
    (Bool.and_eq_true _ _ ▸ isLocal : _ ∧ _).1
  exact List.mem_filterMap.mpr ⟨inner.node,
    List.mem_filter.mpr ⟨Document.mem_nodes_of_mem_preorder around below, declared⟩, leads⟩

def Usage.dataSourceVariable? (usage : Usage) : Option String :=
  (usage.props.find? fun prop => prop.name = "dataSource" && prop.kind = .variable).bind
    fun prop => prop.value.bind Json.string?

variable {battery : List Predicate} {document : Document} {evidence : Evidence} {site : Site}
  {usage : Usage} {name : String}

/-- Where a usage stands does not matter for the generation of the variable that it is given. -/
theorem generation_of_dataSourceVariable
    (extracted : usageAt? battery document evidence site = some usage)
    (given : usage.dataSourceVariable? = some name) :
    usage.generation =
      ((tracedGenerations document evidence.imports name).head?).getD evidence.generation := by
  have readAt := readAt_of_usageAt? extracted
  obtain ⟨prop, isGiven, value⟩ := Option.bind_eq_some_iff.mp given
  have isSource : prop.name = "dataSource" := by
    have := List.find?_some isGiven
    simp only [Bool.and_eq_true, decide_eq_true_eq] at this
    exact this.1
  have hasSource : usage.hasDataSource = true := by
    rw [readAt.hasDataSource]
    exact List.any_eq_true.mpr ⟨prop, List.mem_of_find?_eq_some isGiven, isSource ▸ by decide⟩
  rw [readAt.generation, if_pos hasSource]
  simp only [boundGeneration, Option.bind_eq_bind, isGiven, value, Option.bind_some,
    variableGeneration?_eq_head?]

structure TracedUsage where
  usage : Usage
  given : String
  own : Generation
deriving DecidableEq, Repr

def tracedUsageAt? (battery : List Predicate) (document : Document) (site : Site) :
    Option TracedUsage := do
  let evidence := Evidence.ofDocument document
  let usage ← usageAt? battery document evidence site
  let given ← usage.dataSourceVariable?
  let own ← ownGeneration? document evidence.imports given site
  return ⟨usage, given, own⟩

def tracedUsages (battery : List Predicate) (document : Document) : List TracedUsage :=
  (document.sites.filter fun site => isTag site.node.kind).filterMap
    (tracedUsageAt? battery document)

variable {traced : TracedUsage}

theorem exists_site_of_mem_tracedUsages (member : traced ∈ tracedUsages battery document) :
    ∃ site ∈ document.sites, isTag site.node.kind = true ∧
      usageAt? battery document (Evidence.ofDocument document) site = some traced.usage ∧
      traced.usage.dataSourceVariable? = some traced.given ∧
      ownGeneration? document (Imports.ofDocument document) traced.given site =
        some traced.own := by
  obtain ⟨site, listed, found⟩ := List.mem_filterMap.mp member
  obtain ⟨visited, tag⟩ := List.mem_filter.mp listed
  simp only [tracedUsageAt?, Option.bind_eq_bind, Option.bind_eq_some_iff, Option.pure_def,
    Option.some.injEq] at found
  obtain ⟨usage, extracted, given, isGiven, own, isOwn, rfl⟩ := found
  exact ⟨site, visited, tag, extracted, isGiven, isOwn⟩

theorem own_mem_tracedGenerations (member : traced ∈ tracedUsages battery document) :
    traced.own ∈ tracedGenerations document (Imports.ofDocument document) traced.given := by
  obtain ⟨site, visited, -, -, -, own⟩ := exists_site_of_mem_tracedUsages member
  exact mem_tracedGenerations_of_own visited own

theorem generation_eq_own_iff (member : traced ∈ tracedUsages battery document) :
    traced.usage.generation = traced.own ↔
      (tracedGenerations document (Imports.ofDocument document) traced.given).head? =
        some traced.own := by
  obtain ⟨site, visited, -, extracted, given, own⟩ := exists_site_of_mem_tracedUsages member
  have declared := mem_tracedGenerations_of_own visited own
  rw [generation_of_dataSourceVariable extracted given]
  change ((tracedGenerations document (Imports.ofDocument document) traced.given).head?).getD _ =
    _ ↔ _
  cases first : (tracedGenerations document (Imports.ofDocument document) traced.given).head? with
  | none => exact absurd (List.head?_eq_none_iff.mp first) (List.ne_nil_of_mem declared)
  | some generation => rw [Option.getD_some, Option.some.injEq]

/-- If functions around usages are all that declares their variables, then every usage has its own
generation just when those who share the name of a variable have the same. -/
theorem generations_own_iff
    (covered : ∀ traced ∈ tracedUsages battery document, ∀ generation ∈
      tracedGenerations document (Imports.ofDocument document) traced.given,
      ∃ other ∈ tracedUsages battery document,
        other.given = traced.given ∧ other.own = generation) :
    (∀ traced ∈ tracedUsages battery document, traced.usage.generation = traced.own) ↔
      ∀ first ∈ tracedUsages battery document, ∀ second ∈ tracedUsages battery document,
        first.given = second.given → first.own = second.own := by
  constructor
  · intro right first firstMember second secondMember sameName
    have firstHead := (generation_eq_own_iff firstMember).mp (right first firstMember)
    have secondHead := (generation_eq_own_iff secondMember).mp (right second secondMember)
    rw [sameName, secondHead] at firstHead
    exact (Option.some.inj firstHead).symm
  · intro agree traced member
    rw [generation_eq_own_iff member]
    have declared := own_mem_tracedGenerations member
    cases listed : tracedGenerations document (Imports.ofDocument document) traced.given with
    | nil => exact absurd listed (List.ne_nil_of_mem declared)
    | cons generation rest =>
        -- the first declaration belongs to some usage, which shares the name with this one
        obtain ⟨other, otherMember, sameName, rfl⟩ := covered traced member generation
          (listed ▸ List.mem_cons_self)
        rw [List.head?_cons, agree other otherMember traced member sameName]

def twoForms : List Char :=
  ("import \x7b ArchbaseEdit, ArchbaseDataSource, ArchbaseRemoteDataSource \x7d " ++
    "from '@archbase/react';\n" ++
    "function First() \x7b\n  const ds = new ArchbaseDataSource();\n" ++
    "  return <ArchbaseEdit dataSource=\x7bds\x7d />;\n\x7d\n" ++
    "function Second() \x7b\n  const ds = new ArchbaseRemoteDataSource();\n" ++
    "  return <ArchbaseEdit dataSource=\x7bds\x7d />;\n\x7d\n").toList

-- the second form is taken to be bound to what the first one declares
theorem twoForms_misresolved :
    ((Document.ofComponentFile? "src/Forms.tsx" twoForms).map fun document =>
        (tracedUsages Predicate.standard document).map fun traced =>
          (traced.given, traced.usage.generation, traced.own)) =
      some [("ds", .v1, .v1), ("ds", .v1, .v2)] := by
  decide +kernel

end ComponentSurvey
