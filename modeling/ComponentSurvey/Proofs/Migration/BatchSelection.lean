import ComponentSurvey.Proofs.Files.Building
import ComponentSurvey.Proofs.Migration.Backups
import Mathlib.Data.Finset.Card
import Mathlib.Data.List.ProdSigma

/-!
# Which files a batch migrates

A batch migrates the files of a scan that have a usage to migrate, each once and in
the order of the scan.  Its analysis has an issue for every usage and every rule that
go together.
-/

namespace ComponentSurvey

/-! ## Copies of different values -/

namespace Order

theorem flatMap_filter {α β : Type} (test : α → Bool) (f : α → List β) (values : List α) :
    (values.filter test).flatMap f =
      values.flatMap fun value => if test value then f value else [] := by
  induction values with
  | nil => rfl
  | cons value rest ih => cases passed : test value <;> simp [passed, ih]

variable {α κ : Type} {same : α → α → Bool} {key : α → κ}

theorem foldl_appendNew_copies
    (keyed : ∀ first second, same first second = true ↔ key first = key second)
    {seen copies : List α} {value : α} (fresh : ∀ other ∈ seen, key value ≠ key other)
    (only : ∀ copy ∈ copies, copy = value) :
    copies.foldl (appendNew same) seen =
      seen ++ [value].filter fun _ => !copies.isEmpty := by
  induction copies using List.reverseRecOn with
  | nil => simp
  | append_singleton earlier copy ih =>
      obtain rfl := only copy (by simp)
      have unseen : seen.any (same copy) = false := by
        simpa [List.any_eq_false, keyed] using fresh
      have itself : same copy copy = true := (keyed copy copy).mpr rfl
      rw [List.foldl_append, ih fun other member => only other (List.mem_append_left _ member)]
      cases earlier <;> simp [appendNew, unseen, itself]

section Copies

variable {values : List α} {copies : α → List α}
  (only : ∀ value ∈ values, ∀ copy ∈ copies value, copy = value)

include only

theorem mem_flatMap_copies (value : α) :
    value ∈ values.flatMap copies ↔ value ∈ values.filter fun value => !(copies value).isEmpty := by
  rw [List.mem_flatMap, List.mem_filter, Bool.not_eq_true', List.isEmpty_eq_false_iff_exists_mem]
  constructor
  · rintro ⟨origin, listed, copied⟩
    obtain rfl := only origin listed value copied
    exact ⟨listed, value, copied⟩
  · rintro ⟨listed, copy, copied⟩
    exact ⟨value, listed, only value listed copy copied ▸ copied⟩

theorem distinctBy_flatMap
    (keyed : ∀ first second, same first second = true ↔ key first = key second)
    (apart : values.Pairwise fun first second => key first ≠ key second) :
    distinctBy same (values.flatMap copies) =
      values.filter fun value => !(copies value).isEmpty := by
  induction values using List.reverseRecOn with
  | nil => rfl
  | append_singleton values last ih =>
      obtain ⟨earlier, -, fresh⟩ := List.pairwise_append.mp apart
      have first := ih (fun value member => only value (List.mem_append_left _ member)) earlier
      rw [distinctBy] at first ⊢
      rw [List.flatMap_append, List.foldl_append, first, List.filter_append,
        List.flatMap_singleton, foldl_appendNew_copies keyed _ (only last (by simp)),
        List.filter_singleton, List.filter_singleton]
      intro other kept same
      exact fresh other (List.mem_of_mem_filter kept) last (by simp) same.symm

end Copies

end Order

/-! ## What a batch is to do -/

structure MigrationOptions.Admits (options : MigrationOptions) (usage : Usage) : Prop where
  candidate : usage.isCandidate = true
  component : ∀ name, options.component = some name → usage.name = name

/-- A usage for whose sake a batch migrates its file. -/
structure CallsFor (rules : List MigrationRule) (options : MigrationOptions) (usage : Usage) :
    Prop where
  admitted : options.Admits usage
  targeted : ∃ rule ∈ rules, usage.name ∈ rule.components ∧
    ∀ ids, options.ruleIds = some ids → rule.id ∈ ids
  rated : options.excludeComplex = true →
    MigrationComplexity.ofCounts usage.issues.length usage.props.length ≠ .complex

namespace MigrationOptions

variable {options : MigrationOptions} {usage : Usage}

theorem admits_iff :
    options.Admits usage ↔ (usage.isCandidate && options.allowsComponent usage.name) = true := by
  rw [allowsComponent, Bool.and_eq_true, Option.all_eq_true]
  constructor
  · rintro ⟨candidate, component⟩
    exact ⟨candidate, fun name asked => decide_eq_true (component name asked).symm⟩
  · rintro ⟨candidate, component⟩
    exact ⟨candidate, fun name asked => (of_decide_eq_true (component name asked)).symm⟩

instance : Decidable (options.Admits usage) := decidable_of_iff _ admits_iff.symm

theorem filter_admits (usages : List Usage) :
    (usages.filter fun usage => usage.isCandidate && options.allowsComponent usage.name) =
      usages.filter fun usage => options.Admits usage := by
  apply List.filter_congr
  intro usage _
  rw [Bool.eq_iff_iff, decide_eq_true_eq, admits_iff]

theorem allowsRule_iff {id : String} :
    options.allowsRule id = true ↔ ∀ ids, options.ruleIds = some ids → id ∈ ids := by
  simp [allowsRule, Option.all_eq_true]

end MigrationOptions

/-- What is analyzed and what is migrated, against what a scan has found. -/
structure IsBatch (rules : List MigrationRule) (options : MigrationOptions) (survey : Survey)
    (analysis : MigrationAnalysis) (files : List String) : Prop where
  selected : ∀ file, file ∈ files ↔
    ∃ usage ∈ survey.usages, usage.file = file ∧ CallsFor rules options usage
  inOrder : files.Sublist survey.scannedFiles
  once : files.Pairwise fun first second => Path.isSame first second = false
  issues : analysis.issues =
    ((survey.usages ×ˢ rules).filter fun pair =>
      options.Admits pair.1 ∧ pair.1.name ∈ pair.2.components).map fun pair =>
        .ofUsage pair.1 pair.2
  migrableFiles : analysis.migrableFiles =
    ((survey.usages.filter fun usage => options.Admits usage).map Usage.file).toFinset.card

/-! ## Issues -/

namespace MigrationAnalysis

variable (rules : List MigrationRule) (options : MigrationOptions)

def issuesOf (usage : Usage) : List MigrationIssue :=
  (rules.filter fun rule => options.Admits usage ∧ usage.name ∈ rule.components).map
    (.ofUsage usage)

def selects (issue : MigrationIssue) : Bool :=
  !(options.excludeComplex && issue.complexity = .complex) && options.allowsRule issue.rule

theorem flatMap_issuesOf (survey : Survey) :
    (ofSurvey rules options survey).issues = survey.usages.flatMap (issuesOf rules options) := by
  unfold ofSurvey
  dsimp only
  rw [MigrationOptions.filter_admits, Order.flatMap_filter]
  congr 1
  funext usage
  by_cases admitted : options.Admits usage <;> simp [issuesOf, admitted, MigrationRule.targets]

theorem flatMap_issuesOf_eq_product (usages : List Usage) :
    usages.flatMap (issuesOf rules options) =
      ((usages ×ˢ rules).filter fun pair =>
        options.Admits pair.1 ∧ pair.1.name ∈ pair.2.components).map fun pair =>
          .ofUsage pair.1 pair.2 := by
  simp only [SProd.sprod, List.product, List.filter_flatMap, List.map_flatMap, List.filter_map,
    List.map_map]
  rfl

/-- The file of a usage, as often as an issue of it is selected. -/
def selectedNames (usage : Usage) : List String :=
  ((issuesOf rules options usage).filter (selects options)).map MigrationIssue.file

theorem selectedFiles_ofSurvey (survey : Survey) :
    (ofSurvey rules options survey).selectedFiles options =
      Order.distinctBy Path.isSame (survey.usages.flatMap (selectedNames rules options)) := by
  unfold selectedNames
  rw [← List.map_flatMap, ← List.filter_flatMap, ← flatMap_issuesOf]
  rfl

theorem callsFor_iff {usage : Usage} :
    CallsFor rules options usage ↔ selectedNames rules options usage ≠ [] := by
  rw [selectedNames, ne_eq, List.map_eq_nil_iff, List.filter_eq_nil_iff]
  push Not
  simp only [issuesOf, List.mem_map, List.mem_filter, decide_eq_true_eq, selects,
    Bool.and_eq_true, Bool.not_eq_true', Bool.and_eq_false_iff, decide_eq_false_iff_not,
    MigrationOptions.allowsRule_iff]
  constructor
  · rintro ⟨admitted, ⟨rule, listed, target, allowed⟩, rated⟩
    refine ⟨_, ⟨rule, ⟨listed, admitted, target⟩, rfl⟩, ?_, allowed⟩
    cases excludes : options.excludeComplex with
    | false => exact .inl rfl
    | true => exact .inr (rated excludes)
  · rintro ⟨_, ⟨rule, ⟨listed, admitted, target⟩, rfl⟩, rated, allowed⟩
    refine ⟨admitted, ⟨rule, listed, target, allowed⟩, fun excludes => ?_⟩
    exact rated.resolve_left (by simp [excludes])

theorem eq_file_of_mem_selectedNames {usage : Usage} {name : String}
    (named : name ∈ selectedNames rules options usage) : name = usage.file := by
  obtain ⟨issue, listed, rfl⟩ := List.mem_map.mp named
  obtain ⟨rule, -, rfl⟩ := List.mem_map.mp (List.mem_of_mem_filter listed)
  rfl

/-- The file of a usage, if the options let a migration look at it. -/
def candidateNames (usage : Usage) : List String :=
  if options.Admits usage then [usage.file] else []

theorem migrableFiles_ofSurvey (survey : Survey) :
    (ofSurvey rules options survey).migrableFiles =
      (Order.distinctBy Path.isSame (survey.usages.flatMap (candidateNames options))).length := by
  unfold ofSurvey candidateNames
  dsimp only
  rw [MigrationOptions.filter_admits, List.map_eq_flatMap, Order.flatMap_filter]
  simp only [decide_eq_true_eq]

end MigrationAnalysis

/-! ## Names of the files of a scan -/

namespace Scanner

variable {scanner : Scanner} {tree : FileTree} {root : Place}

theorem usages_scan :
    (scanner.scan tree).usages =
      (scanner.search.discover tree).flatMap fun file => (scanner.resultOf tree file).usages := by
  rw [scan, Survey.ofResults, List.flatMap_map]

theorem scannedFiles_scan :
    (scanner.scan tree).scannedFiles =
      (scanner.search.discover tree).filter fun file =>
        (scanner.resultOf tree file).isAnalyzed := by
  rw [scan, Survey.ofResults, List.filter_map, List.map_map]
  exact List.map_id _

/-- The files of a scan, each named as often as its usages ask for. -/
structure Names (scanner : Scanner) (tree : FileTree) (names : Usage → List String)
    (files : List String) : Prop where
  selected : ∀ file, file ∈ files ↔
    ∃ usage ∈ (scanner.scan tree).usages, usage.file = file ∧ names usage ≠ []
  inOrder : files.Sublist (scanner.scan tree).scannedFiles
  apart : files.Pairwise fun first second => Path.place first ≠ Path.place second

theorem names_distinctBy (there : tree.HasDirectory scanner.search.root root)
    (names : Usage → List String) (own : ∀ usage, ∀ name ∈ names usage, name = usage.file) :
    scanner.Names tree names
      (Order.distinctBy Path.isSame ((scanner.scan tree).usages.flatMap names)) := by
  have only : ∀ file ∈ scanner.search.discover tree,
      ∀ name ∈ (scanner.resultOf tree file).usages.flatMap names, name = file := by
    intro file _ name named
    obtain ⟨usage, isUsage, named⟩ := List.mem_flatMap.mp named
    rw [own usage name named, Pipeline.file_of_mem_resultOf isUsage]
  have apart : (scanner.search.discover tree).Pairwise
      fun first second => Path.place first ≠ Path.place second :=
    (Search.pairwise_discover there).imp fun before => before.ne
  have keyed : ∀ first second,
      Path.isSame first second = true ↔ Path.place first = Path.place second :=
    fun _ _ => Path.isSame_iff
  have kept := Order.distinctBy_flatMap only keyed apart
  have members := Order.mem_flatMap_copies only
  rw [← List.flatMap_assoc, ← usages_scan] at kept members
  rw [kept]
  refine ⟨fun file => ?_, ?_, apart.sublist List.filter_sublist⟩
  · rw [← members, List.mem_flatMap]
    constructor
    · rintro ⟨usage, isUsage, named⟩
      exact ⟨usage, isUsage, (own usage file named).symm, List.ne_nil_of_mem named⟩
    · rintro ⟨usage, isUsage, rfl, some⟩
      obtain ⟨name, named⟩ := List.exists_mem_of_ne_nil _ some
      exact ⟨usage, isUsage, own usage name named ▸ named⟩
  · -- only a file that was analyzed has usages
    rw [scannedFiles_scan]
    apply List.monotone_filter_right
    intro file some
    cases result : scanner.resultOf tree file with
    | analyzed usages => rfl
    | failed failure => simp [result, FileResult.usages] at some
    | removed => simp [result, FileResult.usages] at some

theorem isBatch_scan (there : tree.HasDirectory scanner.search.root root)
    (rules : List MigrationRule) (options : MigrationOptions) :
    IsBatch rules options (scanner.scan tree) (.ofSurvey rules options (scanner.scan tree))
      ((MigrationAnalysis.ofSurvey rules options (scanner.scan tree)).selectedFiles options) := by
  have selected := names_distinctBy there (MigrationAnalysis.selectedNames rules options)
    fun _ _ named => MigrationAnalysis.eq_file_of_mem_selectedNames rules options named
  have candidates := names_distinctBy there (MigrationAnalysis.candidateNames options)
    (by simp [MigrationAnalysis.candidateNames])
  rw [← MigrationAnalysis.selectedFiles_ofSurvey] at selected
  refine ⟨fun file => ?_, selected.inOrder, selected.apart.imp ?_, ?_, ?_⟩
  · rw [selected.selected]
    simp only [MigrationAnalysis.callsFor_iff]
  · intro first second apart
    rw [Bool.eq_false_iff, ne_eq, Path.isSame_iff]
    exact apart
  · rw [MigrationAnalysis.flatMap_issuesOf, MigrationAnalysis.flatMap_issuesOf_eq_product]
  · have distinct := candidates.apart.imp fun apart => ne_of_apply_ne Path.place apart
    rw [MigrationAnalysis.migrableFiles_ofSurvey, ← List.toFinset_card_of_nodup distinct]
    congr 1
    ext file
    simp only [List.mem_toFinset, candidates.selected, List.mem_map, List.mem_filter]
    simp [MigrationAnalysis.candidateNames, and_assoc, and_comm]

end Scanner

/-! ## Batches -/

theorem FileTree.exists_hasDirectory {tree : FileTree} {path : String} (formed : tree.WellFormed)
    (isDirectory : tree.isDirectory path = true) : ∃ place, tree.HasDirectory path place := by
  unfold FileTree.isDirectory lookup at isDirectory
  cases located : tree.locate path with
  | error error =>
      rw [located] at isDirectory
      cases isDirectory
  | ok place =>
      rw [located] at isDirectory
      refine ⟨place, formed, located, ?_⟩
      dsimp only [bind, Except.bind] at isDirectory
      cases found : tree.find? place with
      | none =>
          rw [found] at isDirectory
          cases isDirectory
      | some entry =>
          rw [found] at isDirectory
          cases entry with
          | file content => cases isDirectory
          | directory => rfl

theorem Search.exists_hasDirectory {tree : FileTree} {root : String} {settings : ScannerSettings}
    {search : Search} (formed : tree.WellFormed)
    (searched : Search.begin tree root settings = .ok search) :
    ∃ place, tree.HasDirectory search.root place := by
  unfold Search.begin at searched
  split at searched
  · rename_i isDirectory
    split at searched
    · rw [← Except.ok.inj searched]
      exact FileTree.exists_hasDirectory formed isDirectory
    · cases searched
  · cases searched

def MigrationStep.file : MigrationStep → String
  | unread file _ => file
  | processed file _ _ => file

namespace Pipeline

theorem map_file_steps (rules : List MigrationRule) (options : MigrationOptions) (root : String)
    (tree : FileTree) (files : List String) :
    (steps rules options root tree files).2.map MigrationStep.file = files := by
  conv_rhs => rw [← map_file_visits rules options root tree files]
  rw [steps_eq_map_visits, List.map_map]
  apply List.map_congr_left
  intro visit _
  rcases visit.unread_or_processed rules options root with
    ⟨error, -, report⟩ | ⟨outcome, saved, -, report⟩
  · rw [Function.comp_apply, report, MigrationStep.file]
  · rw [Function.comp_apply, report, MigrationStep.file]

/-- A batch is what a scan selects, and its summary is that of one step for each of its files. -/
theorem migrateBatch_selects (rules : List MigrationRule) (options : MigrationOptions)
    {tree : FileTree} (formed : tree.WellFormed) (root : String) :
    match options.search tree root with
    | .error error => migrateBatch rules options tree root = .error error
    | .ok search => ∃ analysis files after made,
        IsBatch rules options (Scanner.scan ⟨search, Predicate.standard⟩ tree) analysis files ∧
        steps rules options root tree files = (after, made) ∧
        made.map MigrationStep.file = files ∧
        migrateBatch rules options tree root =
          .ok (after, .ofSteps options.dryRun (some analysis) made) := by
  cases searched : options.search tree root with
  | error error =>
      dsimp only
      rw [migrateBatch, MigrationAnalysis.ofProject, searched]
      rfl
  | ok search =>
      dsimp only
      obtain ⟨place, there⟩ := Search.exists_hasDirectory formed searched
      let scanner : Scanner := ⟨search, Predicate.standard⟩
      have batch : IsBatch rules options (scanner.scan tree) _ _ :=
        Scanner.isBatch_scan there rules options
      generalize selected : MigrationAnalysis.selectedFiles _ _ = files at batch
      refine ⟨_, files, (steps rules options root tree files).1, _, batch, rfl,
        map_file_steps rules options root tree files, ?_⟩
      rw [migrateBatch, MigrationAnalysis.ofProject, searched, ← selected]
      rfl

def crowdedField : String := "<ArchbaseEdit a b c d e f g h i j k />;\n"

-- one file is complex, one is complex in part, and one has nothing that a rule is for
def mixedFiles : List (String × Content) :=
  [("a.tsx", .text crowdedField.toList),
    ("b.tsx", .text (crowdedField ++ "<ArchbaseEdit />;\n").toList),
    ("c.tsx", .text "<ArchbaseMultiSelect />;\n".toList)]

def mixedProject : FileTree := .ofFiles "/p" mixedFiles

def simpleOnly : MigrationOptions := { (default : MigrationOptions) with excludeComplex := true }

theorem wellFormed_mixedProject : mixedProject.WellFormed :=
  FileTree.wellFormed_ofFiles ⟨['p'], rfl⟩ (by decide) (by decide +kernel)

theorem migrateBatch_selects_mixed :
    mixedProject.WellFormed ∧
    (match simpleOnly.search mixedProject "/p" with
    | .error error => migrateBatch MigrationRule.shipped simpleOnly mixedProject "/p" = .error error
    | .ok search => ∃ analysis files after made,
        IsBatch MigrationRule.shipped simpleOnly
          (Scanner.scan ⟨search, Predicate.standard⟩ mixedProject) analysis files ∧
        steps MigrationRule.shipped simpleOnly "/p" mixedProject files = (after, made) ∧
        made.map MigrationStep.file = files ∧
        migrateBatch MigrationRule.shipped simpleOnly mixedProject "/p" =
          .ok (after, .ofSteps simpleOnly.dryRun (some analysis) made)) ∧
    ((MigrationAnalysis.ofProject MigrationRule.shipped simpleOnly mixedProject "/p").toOption.map
      fun analysis =>
        (analysis.selectedFiles simpleOnly, analysis.migrableFiles, analysis.issues.length)) =
      some (["b.tsx"], 3, 3) :=
  ⟨wellFormed_mixedProject,
    migrateBatch_selects MigrationRule.shipped simpleOnly wellFormed_mixedProject "/p",
    by decide +kernel⟩

end Pipeline

end ComponentSurvey
