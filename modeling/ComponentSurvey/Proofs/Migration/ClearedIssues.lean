import ComponentSurvey.Proofs.Migration.DoubledAttributes

/-!
# Issues that a migration clears

All renames of the shipped rules together, with the attributes gone that force an update, leave
nothing that is out of date.  What an element lacks they do not touch.
-/

namespace ComponentSurvey

namespace MigrationRule

variable {renames : List AttributeRename} {names : List String} {name : String}

/-- It does not matter whether the attributes are dropped before the renames or after them. -/
theorem filter_foldl_renameName {dropped : String}
    (apart : ∀ rename ∈ renames, rename.old ≠ dropped ∧ rename.new ≠ dropped) :
    (renames.foldl renameName names).filter (· ≠ dropped) =
      renames.foldl renameName (names.filter (· ≠ dropped)) := by
  induction renames generalizing names with
  | nil => rfl
  | cons rename rest ih =>
      obtain ⟨⟨old, new⟩, others⟩ := List.forall_mem_cons.mp apart
      rw [List.foldl_cons, List.foldl_cons, ih others, renameName, renameName, List.filter_map]
      congr 2
      refine List.filter_congr fun given _ => ?_
      by_cases renamed : given = rename.old <;> simp [renamed, old, new]

theorem migratedNames_eq_filter (chosen : renames ⊆ shippedRenames) :
    migratedNames renames names =
      (renames.foldl renameName names).filter (· ≠ DataSourceUpgrade.updateMethod) := by
  refine (filter_foldl_renameName fun rename listed => ?_).symm
  exact (shippedRenames_independent.1 rename (chosen listed)).2

theorem not_mem_foldl_renameName {rename : AttributeRename} (listed : rename ∈ renames)
    (notNew : ∀ other ∈ renames, rename.old ≠ other.new) :
    rename.old ∉ renames.foldl renameName names := by
  induction renames generalizing names with
  | nil => cases listed
  | cons next rest ih =>
      obtain ⟨notNext, notLater⟩ := List.forall_mem_cons.mp notNew
      rcases List.mem_cons.mp listed with rfl | later
      · intro still
        have next := mem_of_mem_foldl_renameName notLater still
        rcases mem_renameName.mp next with ⟨-, other⟩ | ⟨new, -⟩
        · exact other rfl
        · exact notNext new
      · exact ih later notLater

theorem outdated_cleared : ∀ rules ∈ Library.propRules, ∀ name ∈ rules.outdated,
    (name = DataSourceUpgrade.updateMethod ∨ ∃ rename ∈ shippedRenames, rename.old = name) ∧
      ∀ rename ∈ shippedRenames, name ≠ rename.new := by
  decide

theorem not_mem_migratedNames_of_outdated {component : String}
    (outdated : name ∈ Library.outdatedProps component) (names : List String) :
    name ∉ migratedNames shippedRenames names := by
  unfold Library.outdatedProps at outdated
  cases found : Library.rulesFor? component with
  | none => simp [found] at outdated
  | some rules =>
      rw [found] at outdated
      obtain ⟨goes, notNew⟩ := outdated_cleared rules (rulesFor?_mem found) name outdated
      rcases goes with rfl | ⟨rename, listed, rfl⟩
      · rw [migratedNames_eq_filter (List.Subset.refl _)]
        simp
      · exact not_mem_foldl_renameName listed notNew

end MigrationRule

theorem missingProps_migrated {renames : List AttributeRename}
    (chosen : renames ⊆ MigrationRule.shippedRenames) (component : String)
    (names : List String) :
    missingProps component (MigrationRule.migratedNames renames names) =
      missingProps component names := by
  unfold missingProps Library.requiredProps
  cases found : Library.rulesFor? component with
  | none => rfl
  | some rules =>
      refine List.filter_congr fun name required => ?_
      have kept := MigrationRule.mem_migratedNames_of_required chosen (rulesFor?_mem found)
        required names
      simp [kept]

/-- Whatever component an element renders and whatever attributes it has, after all renames and
without the attributes that force an update its issues are the errors that it had before. -/
theorem detectIssues_migrated {before after : List PlacedProp}
    (names : propNames after =
      (MigrationRule.shippedRenames.foldl MigrationRule.renameName (propNames before)).filter
        (· ≠ DataSourceUpgrade.updateMethod))
    (component : String) (line column : Nat) :
    detectIssues component line column after =
      errorsOf (detectIssues component line column before) := by
  rw [← MigrationRule.migratedNames_eq_filter (List.Subset.refl _)] at names
  have onlyErrors : ∀ issue ∈ detectIssues component line column after,
      issue.severity = .error := by
    rw [onlyErrors_iff, names]
    intro name outdated
    exact MigrationRule.not_mem_migratedNames_of_outdated outdated _
  calc detectIssues component line column after
      = errorsOf (detectIssues component line column after) := by
        refine (List.filter_eq_self.mpr fun issue listed => ?_).symm
        exact decide_eq_true (onlyErrors issue listed)
    _ = errorsOf (detectIssues component line column before) := by
        rw [errorsOf_detectIssues, errorsOf_detectIssues, names,
          missingProps_migrated (List.Subset.refl _)]

def namedAt (name : String) (line column : Nat) : PlacedProp :=
  ⟨⟨name, .any, none, none⟩, line, column⟩

-- the second `validation` has a new name too, and stands further to the left
theorem detectIssues_migrated_form :
    let before := [namedAt "validation" 2 4, namedAt "forceUpdate" 2 19, namedAt "validation" 2 31]
    let after := [namedAt "validationRules" 2 4, namedAt "validationRules" 2 24]
    propNames after =
        (MigrationRule.shippedRenames.foldl MigrationRule.renameName (propNames before)).filter
          (· ≠ DataSourceUpgrade.updateMethod) ∧
      (detectIssues "ArchbaseFormTemplate" 1 10 before).map Issue.severity =
        [.error, .warning, .suggestion] ∧
      detectIssues "ArchbaseFormTemplate" 1 10 after =
        [missingIssue "ArchbaseFormTemplate" 1 10 "dataSource"] := by
  intro before after
  have names : propNames after =
      (MigrationRule.shippedRenames.foldl MigrationRule.renameName (propNames before)).filter
        (· ≠ DataSourceUpgrade.updateMethod) := by decide
  refine ⟨names, by decide, ?_⟩
  rw [detectIssues_migrated names, errorsOf_detectIssues]
  decide

end ComponentSurvey
