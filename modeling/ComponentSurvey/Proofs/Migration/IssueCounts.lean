import ComponentSurvey.Migration.Pipeline
import ComponentSurvey.Proofs.Facts.Issues
import ComponentSurvey.Proofs.Migration.References
import ComponentSurvey.Survey.Summary

/-!
# Issues before and after a migration

The shipped rules drop the attributes that are deprecated and rename those that can be replaced;
what was missing is missing still.  So an element gains no issues, unless its component becomes one
that requires more.  A text may gain some all the same, where a dropped attribute takes others
along.
-/

namespace ComponentSurvey

open Syntax

def Library.PropRules.issueCount (rules : Library.PropRules) (names : List String) : Nat :=
  rules.required.countP (fun name => name ∉ names) +
    rules.deprecated.countP (fun entry => entry.1 ∈ names) +
    rules.replaced.countP (fun entry => entry.1 ∈ names)

theorem length_detectIssues (component : String) (line column : Nat) (props : List PlacedProp) :
    (detectIssues component line column props).length =
      ((Library.rulesFor? component).map fun rules => rules.issueCount (propNames props)).getD
        0 := by
  cases found : Library.rulesFor? component with
  | none => rw [detectIssues_eq_nil line column props found]; rfl
  | some rules =>
      rw [detectIssues_eq line column props found]
      simp [List.length_filterMap_eq_countP, isSome_findProp?, Library.PropRules.issueCount,
        List.countP_eq_length_filter, Nat.add_assoc]

theorem Library.PropRules.issueCount_le {rules : Library.PropRules} {before after : List String}
    (kept : ∀ name ∈ rules.required, name ∈ before → name ∈ after)
    (deprecated : ∀ entry ∈ rules.deprecated, entry.1 ∈ after → entry.1 ∈ before)
    (replaced : ∀ entry ∈ rules.replaced, entry.1 ∈ after → entry.1 ∈ before) :
    rules.issueCount after ≤ rules.issueCount before := by
  refine Nat.add_le_add (Nat.add_le_add ?_ ?_) ?_ <;> refine List.countP_mono_left ?_
  · intro name listed missing
    exact decide_eq_true fun given => of_decide_eq_true missing (kept name listed given)
  · intro entry listed given
    exact decide_eq_true (deprecated entry listed (of_decide_eq_true given))
  · intro entry listed given
    exact decide_eq_true (replaced entry listed (of_decide_eq_true given))

namespace MigrationRule

def shippedRenames : List AttributeRename :=
  shipped.flatMap fun rule =>
    match rule.transform with
    | .attributeRenames renames => renames
    | .treeRewrite _ => []

def renameName (names : List String) (rename : AttributeRename) : List String :=
  names.map fun name => if name = rename.old then rename.new else name

/-- The attributes of an element once those that force an update are gone and some renames are
carried out. -/
def migratedNames (renames : List AttributeRename) (names : List String) : List String :=
  renames.foldl renameName (names.filter (· ≠ DataSourceUpgrade.updateMethod))

theorem mem_renameName {names : List String} {rename : AttributeRename} {name : String} :
    name ∈ renameName names rename ↔
      name ∈ names ∧ name ≠ rename.old ∨ name = rename.new ∧ rename.old ∈ names := by
  simp only [renameName, List.mem_map]
  constructor
  · rintro ⟨given, listed, rfl⟩
    by_cases old : given = rename.old
    · exact .inr ⟨if_pos old, old ▸ listed⟩
    · rw [if_neg old]
      exact .inl ⟨listed, old⟩
  · rintro (⟨listed, other⟩ | ⟨rfl, listed⟩)
    · exact ⟨name, listed, if_neg other⟩
    · exact ⟨rename.old, listed, if_pos rfl⟩

theorem mem_of_mem_foldl_renameName {renames : List AttributeRename} {name : String}
    (notNew : ∀ rename ∈ renames, name ≠ rename.new) {names : List String}
    (listed : name ∈ renames.foldl renameName names) : name ∈ names := by
  induction renames generalizing names with
  | nil => exact listed
  | cons rename renames ih =>
      have earlier := ih (fun other member => notNew other (List.mem_cons_of_mem _ member)) listed
      rcases mem_renameName.mp earlier with ⟨given, -⟩ | ⟨new, -⟩
      · exact given
      · exact absurd new (notNew rename List.mem_cons_self)

theorem mem_foldl_renameName {renames : List AttributeRename} {name : String}
    (notOld : ∀ rename ∈ renames, name ≠ rename.old) {names : List String}
    (listed : name ∈ names) : name ∈ renames.foldl renameName names := by
  induction renames generalizing names with
  | nil => exact listed
  | cons rename renames ih =>
      refine ih (fun other member => notOld other (List.mem_cons_of_mem _ member)) ?_
      exact mem_renameName.mpr (.inl ⟨listed, notOld rename List.mem_cons_self⟩)

theorem required_untouched : ∀ rules ∈ Library.propRules, ∀ name ∈ rules.required,
    name ≠ DataSourceUpgrade.updateMethod ∧
      ∀ rename ∈ shippedRenames, name ≠ rename.old ∧ name ≠ rename.new := by
  decide

theorem new_unreported : ∀ rules ∈ Library.propRules, ∀ rename ∈ shippedRenames,
    (∀ entry ∈ rules.deprecated, entry.1 ≠ rename.new) ∧
      ∀ entry ∈ rules.replaced, entry.1 ≠ rename.new := by
  decide

variable {renames : List AttributeRename} {rules : Library.PropRules}

theorem mem_migratedNames_of_required (chosen : renames ⊆ shippedRenames)
    (tabled : rules ∈ Library.propRules) {name : String} (required : name ∈ rules.required)
    (names : List String) : name ∈ migratedNames renames names ↔ name ∈ names := by
  obtain ⟨notUpdate, apart⟩ := required_untouched rules tabled name required
  constructor
  · intro listed
    have kept := mem_of_mem_foldl_renameName
      (fun rename member => (apart rename (chosen member)).2) listed
    exact (List.mem_filter.mp kept).1
  · intro listed
    refine mem_foldl_renameName (fun rename member => (apart rename (chosen member)).1) ?_
    exact List.mem_filter.mpr ⟨listed, decide_eq_true notUpdate⟩

theorem issueCount_migratedNames_le (chosen : renames ⊆ shippedRenames)
    (tabled : rules ∈ Library.propRules) (names : List String) :
    rules.issueCount (migratedNames renames names) ≤ rules.issueCount names := by
  have before {name : String} (notNew : ∀ rename ∈ renames, name ≠ rename.new)
      (listed : name ∈ migratedNames renames names) : name ∈ names :=
    (List.mem_filter.mp (mem_of_mem_foldl_renameName notNew listed)).1
  refine Library.PropRules.issueCount_le ?_ ?_ ?_
  · intro name required
    exact (mem_migratedNames_of_required chosen tabled required names).mpr
  · intro entry listed
    exact before fun rename member => (new_unreported rules tabled rename (chosen member)).1
      entry listed
  · intro entry listed
    exact before fun rename member => (new_unreported rules tabled rename (chosen member)).2
      entry listed

end MigrationRule

section Elements

variable {renames : List AttributeRename} {before after : List PlacedProp}

/-- An element that keeps its component has no more issues than before, whichever of the renames
are carried out. -/
theorem length_detectIssues_migrated_le (chosen : renames ⊆ MigrationRule.shippedRenames)
    (names : propNames after = MigrationRule.migratedNames renames (propNames before))
    (component : String) (line column newLine newColumn : Nat) :
    (detectIssues component newLine newColumn after).length ≤
      (detectIssues component line column before).length := by
  rw [length_detectIssues, length_detectIssues, names]
  cases found : Library.rulesFor? component with
  | none => exact Nat.le_refl _
  | some rules =>
      exact MigrationRule.issueCount_migratedNames_le chosen (rulesFor?_mem found) _

/-- An element whose component becomes its successor gains issues exactly if it lacks a prop that
the successor requires. -/
theorem gains_issues_iff (chosen : renames ⊆ MigrationRule.shippedRenames)
    (names : propNames after = MigrationRule.migratedNames renames (propNames before))
    {component new : String} (successor : DataSourceUpgrade.renamed? component = some new)
    (line column newLine newColumn : Nat) :
    (detectIssues component line column before).length <
        (detectIssues new newLine newColumn after).length ↔
      ∃ rules, Library.rulesFor? new = some rules ∧
        ∃ name ∈ rules.required, name ∉ propNames before := by
  have tables : ∀ entry ∈ DataSourceUpgrade.factoryRenames,
      Library.rulesFor? entry.1 = none ∧
        (Library.rulesFor? entry.2).all (fun rules =>
          rules.deprecated.isEmpty && rules.replaced.isEmpty) = true := by decide
  obtain ⟨untracked, onlyRequired⟩ := tables _ (DataSourceUpgrade.mem_factoryRenames successor)
  rw [length_detectIssues, length_detectIssues, untracked, names]
  cases found : Library.rulesFor? new with
  | none => simp
  | some rules =>
      rw [found, Option.all_some, Bool.and_eq_true, List.isEmpty_iff, List.isEmpty_iff]
        at onlyRequired
      have required (name : String) (listed : name ∈ rules.required) :=
        MigrationRule.mem_migratedNames_of_required chosen (rulesFor?_mem found) listed
          (propNames before)
      simp only [Option.map_none, Option.getD_none, Option.map_some, Option.getD_some,
        Library.PropRules.issueCount, onlyRequired, List.countP_nil, Nat.add_zero,
        List.countP_pos_iff, decide_eq_true_eq, Option.some.injEq, exists_eq_left']
      exact exists_congr fun name => and_congr_right fun listed =>
        not_congr (required name listed)

end Elements

def reportedIssues (document : Document) : Nat :=
  issueTotal (extractUsages Predicate.standard document)

/-- The shipped rules leave no more issues in a text than they find, if both texts parse. -/
def gainsNoIssues (path : String) (source : List Char) : Bool :=
  (Document.ofComponentFile? path source).all fun before =>
    ((Pipeline.migrate MigrationRule.shipped default path source).code.bind
        (Document.ofComponentFile? path)).all fun after =>
      decide (reportedIssues after ≤ reportedIssues before)

def annotatedTag : List Char :=
  "import \x7b ArchbaseEdit \x7d from '@archbase/react';\n".toList ++
    "const x = (\n  <ArchbaseEdit // bound above\n".toList ++
    "    forceUpdate dataSource=\x7bds\x7d dataField=\"name\"\n  />\n);\n".toList

-- the comment takes the required attributes along
theorem annotatedTag_worse :
    (Document.ofComponentFile? "src/App.tsx" annotatedTag).map reportedIssues = some 1 ∧
      ((Pipeline.migrate MigrationRule.shipped default "src/App.tsx" annotatedTag).code.bind
          (Document.ofComponentFile? "src/App.tsx")).map reportedIssues = some 2 ∧
      gainsNoIssues "src/App.tsx" annotatedTag = false := by
  decide +kernel

end ComponentSurvey
