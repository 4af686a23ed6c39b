import ComponentSurvey.Facts.ComponentSummary
import ComponentSurvey.Proofs.Facts.Tagging
import ComponentSurvey.Proofs.Facts.Usages
import ComponentSurvey.Proofs.Order.Distinct
import ComponentSurvey.Proofs.Syntax.Walk

/-!
# Usages and the evidence of their document

What a usage says about generations and hooks is read off nodes of its document, so the document as
a whole gives evidence of the same.
-/

namespace ComponentSurvey

open Syntax

/-! ## Evidence of the two generations -/

def InvokesAny (document : Document) (names : List String) : Prop :=
  ∃ node ∈ document.nodes, ∃ callee name, invoked? node = some callee ∧
    calleeName? document (Imports.ofDocument document) callee = some name ∧ name ∈ names

def UsesFirst (document : Document) : Prop :=
  InvokesAny document Library.firstGenerationFactories

def UsesSecond (document : Document) : Prop :=
  InvokesAny document Library.secondGenerationFactories ∨
    ∃ node ∈ document.nodes, callsSecondGenerationMethod document node = true

theorem factoryGeneration?_eq_v1_iff {name : String} :
    factoryGeneration? name = some .v1 ↔ name ∈ Library.firstGenerationFactories := by
  rw [factoryGeneration?]
  split
  · simp_all
  · split <;> simp_all

theorem factoryGeneration?_eq_v2_iff {name : String} :
    factoryGeneration? name = some .v2 ↔ name ∈ Library.secondGenerationFactories := by
  have apart : ∀ name ∈ Library.firstGenerationFactories,
      name ∉ Library.secondGenerationFactories := by decide
  rw [factoryGeneration?]
  split
  · rename_i first
    simp [apart name (List.contains_iff_mem.mp first)]
  · split <;> simp_all

theorem factoryGeneration?_cases {name : String} {generation : Generation}
    (made : factoryGeneration? name = some generation) : generation = .v1 ∨ generation = .v2 := by
  rw [factoryGeneration?] at made
  split at made
  · exact .inl (Option.some.inj made).symm
  · split at made
    · exact .inr (Option.some.inj made).symm
    · cases made

theorem invokedGeneration?_eq_some_iff {document : Document} {imports : Imports} {node : Node}
    {generation : Generation} :
    invokedGeneration? document imports node = some generation ↔
      ∃ callee name, invoked? node = some callee ∧
        calleeName? document imports callee = some name ∧
          factoryGeneration? name = some generation := by
  simp only [invokedGeneration?, Option.bind_eq_some_iff]
  grind

namespace Evidence

theorem firstGeneration_ofDocument (document : Document) :
    (ofDocument document).firstGeneration = true ↔ UsesFirst document := by
  simp only [ofDocument, List.any_eq_true, decide_eq_true_eq, invokedGeneration?_eq_some_iff,
    factoryGeneration?_eq_v1_iff]
  exact .rfl

theorem secondGeneration_ofDocument (document : Document) :
    (ofDocument document).secondGeneration = true ↔ UsesSecond document := by
  simp only [ofDocument, List.any_eq_true, Bool.or_eq_true, decide_eq_true_eq,
    invokedGeneration?_eq_some_iff, factoryGeneration?_eq_v2_iff, and_or_left, exists_or]
  exact .rfl

end Evidence

/-! ## Generations with a ground -/

/-- The document gives evidence of what a generation stands for. -/
def Grounded (document : Document) : Generation → Prop
  | .v1 => UsesFirst document
  | .v2 => UsesSecond document
  | .mixed => UsesFirst document ∧ UsesSecond document
  | .unknown => True

theorem grounded_generation (document : Document) :
    Grounded document (Evidence.ofDocument document).generation := by
  have first := Evidence.firstGeneration_ofDocument document
  have second := Evidence.secondGeneration_ofDocument document
  rw [Evidence.generation]
  cases isFirst : (Evidence.ofDocument document).firstGeneration <;>
    cases isSecond : (Evidence.ofDocument document).secondGeneration
  · exact trivial
  · exact second.mp isSecond
  · exact first.mp isFirst
  · exact ⟨first.mp isFirst, second.mp isSecond⟩

theorem grounded_of_invokedGeneration? {document : Document} {node : Node}
    {generation : Generation} (visited : node ∈ document.nodes)
    (made : invokedGeneration? document (Imports.ofDocument document) node = some generation) :
    Grounded document generation := by
  obtain ⟨callee, name, invoked, named, isFactory⟩ := invokedGeneration?_eq_some_iff.mp made
  rcases factoryGeneration?_cases isFactory with rfl | rfl
  · exact ⟨node, visited, callee, name, invoked, named, factoryGeneration?_eq_v1_iff.mp isFactory⟩
  · exact .inl
      ⟨node, visited, callee, name, invoked, named, factoryGeneration?_eq_v2_iff.mp isFactory⟩

/-! ## Tracing -/

theorem mem_preorder_of_first {node inner : Node} (first : node.namedChildren.head? = some inner) :
    inner ∈ node.preorder :=
  mem_preorder_of_mem_children (List.mem_filter.mp (List.mem_of_head? first)).1

theorem mem_preorder_of_child? {node inner : Node} {role : Role}
    (found : node.child? role = some inner) : inner ∈ node.preorder :=
  mem_preorder_of_mem_children (Node.mem_children_of_child? found)

section Steps

variable {document : Document} {imports : Imports} {fuel : Nat} {generation : Generation}

theorem exists_traced_of_argument {first : Node}
    (traced :
      (if first.kind.isFunction then
        (first.child? .body).bind fun body =>
          if body.kind = .statementBlock then
            (body.preorder.filter fun node =>
              node.kind = .newExpression || node.kind = .callExpression).findSome?
                (initialGeneration? document imports fuel)
          else initialGeneration? document imports fuel body
      else initialGeneration? document imports fuel first) = some generation) :
    ∃ inner ∈ first.preorder,
      initialGeneration? document imports fuel inner = some generation := by
  split at traced
  · obtain ⟨body, isBody, traced⟩ := Option.bind_eq_some_iff.mp traced
    have inBody := preorder_subset (mem_preorder_of_child? isBody)
    split at traced
    · obtain ⟨inner, listed, inside⟩ := List.exists_of_findSome?_eq_some traced
      exact ⟨inner, inBody (List.mem_filter.mp listed).1, inside⟩
    · exact ⟨body, inBody (self_mem_preorder body), traced⟩
  · exact ⟨first, self_mem_preorder first, traced⟩

theorem initialGeneration?_succ {value : Node}
    (traced : initialGeneration? document imports (fuel + 1) value = some generation) :
    invokedGeneration? document imports value = some generation ∨
      ∃ inner ∈ value.preorder,
        initialGeneration? document imports fuel inner = some generation := by
  have passed (unwrapped : value.namedChildren.head?.bind
      (initialGeneration? document imports fuel) = some generation) :
      ∃ inner ∈ value.preorder,
        initialGeneration? document imports fuel inner = some generation := by
    obtain ⟨inner, first, inside⟩ := Option.bind_eq_some_iff.mp unwrapped
    exact ⟨inner, mem_preorder_of_first first, inside⟩
  rw [initialGeneration?] at traced
  split at traced
  -- wrappers of five kinds pass on what they wrap
  · exact .inr (passed traced)
  · exact .inr (passed traced)
  · exact .inr (passed traced)
  · exact .inr (passed traced)
  · exact .inr (passed traced)
  · exact .inl traced
  · rename_i isCall
    obtain ⟨name, named, traced⟩ := Option.bind_eq_some_iff.mp traced
    split at traced
    · rename_i factory made
      refine .inl ?_
      rw [invokedGeneration?, invoked?, isCall]
      simpa only [named, Option.bind_some, made] using traced
    · split at traced
      · cases traced
      · obtain ⟨first, isFirst, traced⟩ := Option.bind_eq_some_iff.mp traced
        obtain ⟨arguments, given, isFirst⟩ := Option.bind_eq_some_iff.mp isFirst
        obtain ⟨inner, inFirst, inside⟩ := exists_traced_of_argument traced
        have inArguments := preorder_subset (mem_preorder_of_first isFirst) inFirst
        exact .inr ⟨inner, preorder_subset (mem_preorder_of_child? given) inArguments, inside⟩
  · cases traced

/-- However deep a value is traced, what it is traced to is constructed or called by a node of the
document. -/
theorem exists_invoked_of_initialGeneration? {value : Node} (visited : value ∈ document.nodes)
    (traced : initialGeneration? document imports fuel value = some generation) :
    ∃ node ∈ document.nodes, invokedGeneration? document imports node = some generation := by
  induction fuel generalizing value with
  | zero => cases traced
  | succ fuel ih =>
      rcases initialGeneration?_succ traced with made | ⟨inner, inside, later⟩
      · exact ⟨value, visited, made⟩
      · exact ih (Document.mem_nodes_of_mem_preorder visited inside) later

theorem exists_invoked_of_variableGeneration? {name : String}
    (traced : variableGeneration? document imports name = some generation) :
    ∃ node ∈ document.nodes, invokedGeneration? document imports node = some generation := by
  obtain ⟨declarator, listed, leads⟩ := List.exists_of_findSome?_eq_some traced
  obtain ⟨value, isValue, leads⟩ := Option.bind_eq_some_iff.mp leads
  have visited := Document.mem_nodes_of_mem_nodesOfKind (List.mem_filter.mp listed).1
  exact exists_invoked_of_initialGeneration?
    (Document.mem_nodes_of_mem_preorder visited (mem_preorder_of_child? isValue)) leads

end Steps

theorem grounded_boundGeneration (document : Document) (props : List GivenProp) :
    Grounded document (boundGeneration document (Evidence.ofDocument document) props) := by
  have either (traced? : Option Generation)
      (ground : ∀ generation, traced? = some generation → Grounded document generation) :
      Grounded document (traced?.getD (Evidence.ofDocument document).generation) := by
    cases traced? with
    | none => exact grounded_generation document
    | some generation => exact ground generation rfl
  rw [boundGeneration]
  refine either _ fun generation found => ?_
  simp only [Option.bind_eq_bind, Option.bind_eq_some_iff] at found
  obtain ⟨-, -, name, -, traced⟩ := found
  obtain ⟨node, visited, made⟩ := exists_invoked_of_variableGeneration? traced
  exact grounded_of_invokedGeneration? visited made

/-! ## Usages -/

theorem grounded_of_mem_usagesOf {battery : List Predicate} {document : Document} {usage : Usage}
    (member : usage ∈ usagesOf battery document (Evidence.ofDocument document)) :
    Grounded document usage.generation := by
  obtain ⟨site, -, -, readAt⟩ := exists_site_of_mem_usagesOf member
  rw [readAt.generation]
  split
  · exact grounded_boundGeneration document usage.props
  · exact trivial

/-! ## The generation of a whole document -/

/-- A generation says which of two kinds of evidence there is. -/
structure Tells (generation : Generation) (first second : Prop) : Prop where
  mixed : generation = .mixed ↔ first ∧ second
  v1 : generation = .v1 ↔ first ∧ ¬second
  v2 : generation = .v2 ↔ ¬first ∧ second
  unknown : generation = .unknown ↔ ¬first ∧ ¬second

theorem tells_generation (document : Document) :
    Tells (Evidence.ofDocument document).generation (UsesFirst document) (UsesSecond document) := by
  rw [← Evidence.firstGeneration_ofDocument, ← Evidence.secondGeneration_ofDocument,
    Evidence.generation]
  cases (Evidence.ofDocument document).firstGeneration <;>
    cases (Evidence.ofDocument document).secondGeneration <;>
    constructor <;> simp [Generation.ofEvidence]

/-- Generations show a kind of evidence by its own generation or by the mixed one. -/
theorem contains_iff_evidence {found : List Generation} {kind : Generation} {evidence : Prop}
    (ofMixed : .mixed ∈ found → evidence) (ofKind : kind ∈ found → evidence)
    (shown : evidence → .mixed ∈ found ∨ kind ∈ found) :
    (found.contains .mixed || found.contains kind) = true ↔ evidence := by
  rw [Bool.or_eq_true, List.contains_iff_mem, List.contains_iff_mem]
  exact ⟨fun either => either.elim ofMixed ofKind, shown⟩

/-- Generations with a ground, that of the document among them, show first or second the very kinds
of evidence there are. -/
theorem contains_grounded {document : Document} {found : List Generation}
    (grounded : ∀ generation ∈ found, Grounded document generation)
    (own : (Evidence.ofDocument document).generation ∈ found) :
    (found.contains .mixed || found.contains .v1) =
        (Evidence.ofDocument document).firstGeneration ∧
      (found.contains .mixed || found.contains .v2) =
        (Evidence.ofDocument document).secondGeneration := by
  have tells := tells_generation document
  constructor
  · rw [Bool.eq_iff_iff, Evidence.firstGeneration_ofDocument]
    refine contains_iff_evidence (fun isMixed => (grounded _ isMixed).1) (grounded _)
      fun first => ?_
    by_cases second : UsesSecond document
    · exact .inl (tells.mixed.mpr ⟨first, second⟩ ▸ own)
    · exact .inr (tells.v1.mpr ⟨first, second⟩ ▸ own)
  · rw [Bool.eq_iff_iff, Evidence.secondGeneration_ofDocument]
    refine contains_iff_evidence (fun isMixed => (grounded _ isMixed).2) (grounded _)
      fun second => ?_
    by_cases first : UsesFirst document
    · exact .inl (tells.mixed.mpr ⟨first, second⟩ ▸ own)
    · exact .inr (tells.v2.mpr ⟨first, second⟩ ▸ own)

theorem combinedGeneration_eq {document : Document} {usages : List Usage}
    (grounded : ∀ usage ∈ usages, Grounded document usage.generation) :
    combinedGeneration usages (Evidence.ofDocument document) =
      (Evidence.ofDocument document).generation := by
  have all : ∀ generation ∈ (Evidence.ofDocument document).generation ::
      (usages.filter fun usage => usage.hasDataSource).map Usage.generation,
      Grounded document generation := by
    intro generation member
    rcases List.mem_cons.mp member with rfl | ofUsage
    · exact grounded_generation document
    · obtain ⟨usage, bound, rfl⟩ := List.mem_map.mp ofUsage
      exact grounded usage (List.mem_filter.mp bound).1
  obtain ⟨first, second⟩ := contains_grounded all List.mem_cons_self
  rw [combinedGeneration, first, second, Evidence.generation]

/-! ## Hooks -/

theorem mem_hooks_of_mem_scopeHooks {document : Document} {scope : Node}
    (visited : scope ∈ document.nodes) {hook : String} (called : hook ∈ scopeHooks document scope) :
    hook ∈ (Evidence.ofDocument document).hooks := by
  obtain ⟨node, inside, isHook⟩ := List.mem_filterMap.mp (Order.mem_distinct.mp called)
  exact Order.mem_distinct.mpr (List.mem_filterMap.mpr
    ⟨node, Document.mem_nodes_of_mem_preorder visited inside, isHook⟩)

theorem outermostFunction?_mem_nodes {document : Document} {site : Site}
    (visited : site ∈ document.sites) {function : Node}
    (around : site.outermostFunction? = some function) : function ∈ document.nodes :=
  Document.ancestor_mem_nodes visited (List.mem_reverse.mp (List.mem_of_find?_eq_some around))

/-- The tests of a battery that go by the names of the two tests for hooks are these tests. -/
def KeepsHookTests (battery : List Predicate) : Prop :=
  ∀ predicate ∈ battery,
    (predicate.name = "stateful" → predicate = .stateful) ∧
      (predicate.name = "with-effects" → predicate = .withEffects)

theorem keepsHookTests_of_subset {battery : List Predicate}
    (standard : ∀ predicate ∈ battery, predicate ∈ Predicate.standard) :
    KeepsHookTests battery := by
  intro predicate member
  have known := standard predicate member
  simp only [Predicate.standard, List.mem_cons, List.not_mem_nil, or_false] at known
  rcases known with rfl | rfl | rfl | rfl | rfl | rfl | rfl | rfl | rfl <;>
    simp [Predicate.formWithDataSource, Predicate.crudWithDataGrid, Predicate.asyncLoading,
      Predicate.validationWithFeedback, Predicate.stateful, Predicate.withEffects,
      Predicate.memoized, Predicate.withRef, Predicate.dataBound]

section Tags

variable {battery : List Predicate} {document : Document} {usage : Usage} {name : String}

theorem exists_context_of_hasPattern
    (member : usage ∈ usagesOf battery document (Evidence.ofDocument document))
    (tagged : usage.hasPattern name = true) :
    ∃ predicate ∈ battery, predicate.name = name ∧ ∃ context, predicate.test context = true ∧
      ∀ hook ∈ context.scopeHooks, hook ∈ (Evidence.ofDocument document).hooks := by
  obtain ⟨site, visited, -, readAt⟩ := exists_site_of_mem_usagesOf member
  obtain ⟨context, patterns, hooks⟩ := readAt.patterns
  rw [Usage.hasPattern, List.contains_iff_mem, patterns, mem_tags] at tagged
  obtain ⟨predicate, inBattery, named, passes⟩ := tagged
  refine ⟨predicate, inBattery, named, context, passes, fun hook called => ?_⟩
  rw [hooks] at called
  cases around : site.outermostFunction? with
  | none =>
      rw [around] at called
      cases called
  | some function =>
      rw [around] at called
      exact mem_hooks_of_mem_scopeHooks (outermostFunction?_mem_nodes visited around) called

theorem mem_hooks_of_stateful (keeps : KeepsHookTests battery)
    (member : usage ∈ usagesOf battery document (Evidence.ofDocument document))
    (tagged : usage.hasPattern "stateful" = true) :
    ∃ hook ∈ (Evidence.ofDocument document).hooks, hook ∈ ["useState", "useReducer"] := by
  obtain ⟨predicate, inBattery, named, context, passes, called⟩ :=
    exists_context_of_hasPattern member tagged
  rw [(keeps predicate inBattery).1 named] at passes
  obtain ⟨hook, asked, inScope⟩ := List.any_eq_true.mp passes
  exact ⟨hook, called hook (List.contains_iff_mem.mp inScope), asked⟩

theorem mem_hooks_of_withEffects (keeps : KeepsHookTests battery)
    (member : usage ∈ usagesOf battery document (Evidence.ofDocument document))
    (tagged : usage.hasPattern "with-effects" = true) :
    ∃ hook ∈ (Evidence.ofDocument document).hooks, hook ∈ Library.sideEffectHooks := by
  obtain ⟨predicate, inBattery, named, context, passes, called⟩ :=
    exists_context_of_hasPattern member tagged
  rw [(keeps predicate inBattery).2 named] at passes
  obtain ⟨hook, asked, inScope⟩ := List.any_eq_true.mp passes
  exact ⟨hook, called hook (List.contains_iff_mem.mp inScope), asked⟩

end Tags

/-! ## The summary -/

/--
What a summary says of its usages is borne out by the document.  Each usage's generation has its
ground there, so the generation of the summary tells which of the two kinds of evidence the document
gives, and is unknown where no data source is.  The hooks of the function around a site are hooks of
the summary, and so are those that the tags of usages speak of.
-/
theorem summary_grounded {battery : List Predicate} (keeps : KeepsHookTests battery)
    (document : Document) :
    let summary := ComponentSummary.ofDocument battery document
    (∀ usage ∈ summary.usages, Grounded document usage.generation) ∧
      Tells summary.dataSource.generation (UsesFirst document) (UsesSecond document) ∧
      (summary.dataSource.hasDataSource = false →
        summary.dataSource.generation = .unknown) ∧
      (∀ site ∈ document.sites, ∀ function, site.outermostFunction? = some function →
        ∀ hook ∈ scopeHooks document function, hook ∈ summary.hooks) ∧
      ∀ usage ∈ summary.usages,
        (usage.hasPattern "stateful" = true →
          ∃ hook ∈ summary.hooks, hook ∈ ["useState", "useReducer"]) ∧
        (usage.hasPattern "with-effects" = true →
          ∃ hook ∈ summary.hooks, hook ∈ Library.sideEffectHooks) := by
  intro summary
  have grounded : ∀ usage ∈ summary.usages, Grounded document usage.generation :=
    fun usage member => grounded_of_mem_usagesOf member
  have told : summary.dataSource.generation = (Evidence.ofDocument document).generation :=
    combinedGeneration_eq grounded
  have tells := tells_generation document
  refine ⟨grounded, told ▸ tells, fun without => ?_, fun site visited function around hook called =>
    ?_, fun usage member => ⟨?_, ?_⟩⟩
  · rw [told, tells.unknown, ← Evidence.firstGeneration_ofDocument,
      ← Evidence.secondGeneration_ofDocument]
    simp only [summary, ComponentSummary.ofDocument, Bool.or_eq_false_iff] at without
    simp [without.1.2, without.2]
  · exact mem_hooks_of_mem_scopeHooks (outermostFunction?_mem_nodes visited around) called
  · exact mem_hooks_of_stateful keeps member
  · exact mem_hooks_of_withEffects keeps member

def boundUsers : List Char :=
  ("function Users() \x7b\n" ++
    "  const [users] = useState(() => new ArchbaseDataSource());\n" ++
    "  useEffect(() => users.appendToFieldArray());\n" ++
    "  return <ArchbaseEdit dataSource=\x7busers\x7d />;\n\x7d\n").toList

theorem summary_grounded_boundUsers :
    KeepsHookTests Predicate.standard ∧
      ∃ document, Document.ofComponentFile? "src/Users.tsx" boundUsers = some document ∧
        let summary := ComponentSummary.ofDocument Predicate.standard document
        summary.usages.map Usage.generation = [.v1] ∧
          summary.usages.map Usage.patterns = [["stateful", "with-effects"]] ∧
          summary.dataSource.generation = .mixed ∧
          UsesFirst document ∧ UsesSecond document ∧
          ∃ hook ∈ summary.hooks, hook ∈ Library.sideEffectHooks := by
  have keeps : KeepsHookTests Predicate.standard := keepsHookTests_of_subset fun _ member => member
  have read : (Document.ofComponentFile? "src/Users.tsx" boundUsers).any (fun document =>
      let summary := ComponentSummary.ofDocument Predicate.standard document
      summary.usages.map Usage.generation = [.v1] &&
        (summary.usages.map Usage.patterns = [["stateful", "with-effects"]] &&
          summary.dataSource.generation = .mixed)) = true := by decide +kernel
  obtain ⟨document, parsed, told⟩ := (Option.any_eq_true _ _).mp read
  simp only [Bool.and_eq_true, decide_eq_true_eq] at told
  obtain ⟨generations, patterns, generation⟩ := told
  obtain ⟨-, tells, -, -, tags⟩ := summary_grounded keeps document
  obtain ⟨first, second⟩ := tells.mixed.mp generation
  obtain ⟨usage, only, tagged⟩ := List.map_eq_singleton_iff.mp patterns
  have member : usage ∈ (ComponentSummary.ofDocument Predicate.standard document).usages := by
    rw [only]
    exact List.mem_singleton_self usage
  refine ⟨keeps, document, parsed, generations, patterns, generation, first, second,
    (tags usage member).2 ?_⟩
  rw [Usage.hasPattern, tagged]
  decide

end ComponentSurvey
