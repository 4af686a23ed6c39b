import ComponentSurvey.Proofs.Migration.Attempts
import ComponentSurvey.Proofs.Migration.IssueCounts
import ComponentSurvey.Proofs.Migration.TextRenames
import ComponentSurvey.Proofs.Order.Sorting
import ComponentSurvey.Proofs.Syntax.Parsing
import Mathlib.Data.List.Sublists

/-!
# Migrating again

A run makes no changes exactly when the text holds nothing that its rules look for, and then it
leaves the text as it is.  One run need not bring a text there: what it removes may have kept apart
what makes up a new attribute or a new call.  Where the text does not parse, one run is enough.
-/

namespace ComponentSurvey

open Syntax

def MigrationRule.renames (rule : MigrationRule) : List AttributeRename :=
  match rule.transform with
  | .attributeRenames renames => renames
  | .treeRewrite _ => []

theorem MigrationRule.upgrade_or_renames {rule : MigrationRule} (shipped : rule ∈ shipped) :
    rule = .dataSourceUpgrade ∨ rule.transform = .attributeRenames rule.renames := by
  simp only [MigrationRule.shipped, List.mem_cons, List.not_mem_nil, or_false] at shipped
  rcases shipped with rfl | rfl | rfl
  · exact .inl rfl
  · exact .inr rfl
  · exact .inr rfl

/-! ## Rules with nothing to do -/

theorem Edit.kept_eq_nil_iff {edits : List Edit} : Edit.kept edits = [] ↔ edits = [] := by
  constructor
  · intro none
    by_contra some
    obtain ⟨edit, member⟩ := List.exists_mem_of_ne_nil edits some
    have sorted : Order.sortBy Edit.precedes edits ≠ [] :=
      List.ne_nil_of_mem (Order.mem_sortBy.mpr member)
    obtain ⟨first, others, isSorted⟩ := List.exists_cons_of_ne_nil sorted
    rw [Edit.kept, isSorted, Edit.dropOverlaps, if_neg (Nat.not_lt_zero _)] at none
    cases none
  · rintro rfl
    rfl

theorem DataSourceUpgrade.changes_ofDocument_eq_nil_iff {document : Document} :
    (ofDocument document).changes = [] ↔
      edits document (Imports.ofDocument document) = [] := by
  rw [← Edit.kept_eq_nil_iff]
  exact List.map_eq_nil_iff

theorem DataSourceUpgrade.code_ofDocument_of_idle {document : Document}
    (idle : edits document (Imports.ofDocument document) = []) :
    (ofDocument document).code = some document.source := by
  rw [ofDocument, idle]
  rfl

/-! ### Renames -/

section Renames

variable {path : String} {renames : List AttributeRename}

def renameStep (path : String) (reached : List Char × List Change) (rename : AttributeRename) :
    List Char × List Change :=
  ((rename.apply path reached.1).1, reached.2 ++ (rename.apply path reached.1).2)

theorem applyRenames_eq (source : List Char) :
    applyRenames renames path source =
      .success (renames.foldl (renameStep path) (source, [])).1
        (renames.foldl (renameStep path) (source, [])).2 [] := rfl

theorem renameStep_of_idle {reached : List Char × List Change} {rename : AttributeRename}
    (idle : rename.spans path reached.1 = []) : renameStep path reached rename = reached := by
  rw [renameStep, AttributeRename.apply, idle]
  exact Prod.ext rfl (List.append_nil _)

theorem foldl_renameStep_of_idle {reached : List Char × List Change}
    (idle : ∀ rename ∈ renames, rename.spans path reached.1 = []) :
    renames.foldl (renameStep path) reached = reached := by
  induction renames with
  | nil => rfl
  | cons rename rest ih =>
      obtain ⟨here, later⟩ := List.forall_mem_cons.mp idle
      rw [List.foldl_cons, renameStep_of_idle here, ih later]

theorem exists_foldl_renameStep (reached : List Char × List Change) :
    ∃ more, (renames.foldl (renameStep path) reached).2 = reached.2 ++ more := by
  induction renames generalizing reached with
  | nil => exact ⟨[], (List.append_nil _).symm⟩
  | cons rename rest ih =>
      obtain ⟨more, found⟩ := ih (renameStep path reached rename)
      exact ⟨_, found.trans (List.append_assoc _ _ _)⟩

theorem idle_of_foldl_renameStep {reached : List Char × List Change}
    (none : (renames.foldl (renameStep path) reached).2 = []) :
    ∀ rename ∈ renames, rename.spans path reached.1 = [] := by
  induction renames with
  | nil => exact fun _ member => nomatch member
  | cons rename rest ih =>
      rw [List.foldl_cons] at none
      have here : rename.spans path reached.1 = [] := by
        obtain ⟨more, found⟩ : ∃ more,
            (rest.foldl (renameStep path) (renameStep path reached rename)).2 =
              (renameStep path reached rename).2 ++ more :=
          exists_foldl_renameStep _
        rw [none, renameStep, List.append_assoc, eq_comm, List.append_eq_nil_iff,
          List.append_eq_nil_iff] at found
        exact List.map_eq_nil_iff.mp found.2.1
      rw [renameStep_of_idle here] at none
      exact List.forall_mem_cons.mpr ⟨here, ih none⟩

theorem changes_applyRenames_eq_nil_iff {source : List Char} :
    (applyRenames renames path source).changes = [] ↔
      ∀ rename ∈ renames, rename.spans path source = [] := by
  rw [applyRenames_eq]
  constructor
  · exact idle_of_foldl_renameStep
  · intro idle
    rw [foldl_renameStep_of_idle idle]
    rfl

theorem code_applyRenames_of_idle {source : List Char}
    (idle : ∀ rename ∈ renames, rename.spans path source = []) :
    (applyRenames renames path source).code = some source := by
  rw [applyRenames_eq, foldl_renameStep_of_idle idle]
  rfl

end Renames

/-! ## Runs with nothing to do -/

namespace Pipeline

variable {options : MigrationOptions} {path : String}

/-- On every text on which the rule makes no changes it hands on that text. -/
def KeepsWhatItLeaves (rule : MigrationRule) : Prop :=
  ∀ path code, (attempt path code rule).changes = [] → (attempt path code rule).handOn code = code

/-- If no rule makes changes, each has met the text that the run began with. -/
theorem flatMap_changes_eq_nil_iff {rules : List MigrationRule}
    (keep : ∀ rule ∈ rules, KeepsWhatItLeaves rule) (code : List Char) :
    (attempts options path code rules).flatMap Attempt.changes = [] ↔
      ∀ rule ∈ rules, appliesTo options code rule = true →
        (attempt path code rule).changes = [] := by
  induction rules with
  | nil => exact ⟨fun _ _ member => (nomatch member), fun _ => rfl⟩
  | cons rule rest ih =>
      obtain ⟨here, later⟩ := List.forall_mem_cons.mp keep
      rw [attempts, List.forall_mem_cons, ← ih later]
      split
      · rename_i applies
        simp only [List.flatMap_cons, List.append_eq_nil_iff, applies, forall_const]
        refine and_congr_right fun idle => ?_
        rw [here path code idle]
      · rename_i skipped
        simp [skipped]

theorem codeAfter_of_idle {rules : List MigrationRule}
    (keep : ∀ rule ∈ rules, KeepsWhatItLeaves rule) {code : List Char}
    (idle : (attempts options path code rules).flatMap Attempt.changes = []) :
    codeAfter code (attempts options path code rules) = code := by
  induction rules with
  | nil => rfl
  | cons rule rest ih =>
      obtain ⟨here, later⟩ := List.forall_mem_cons.mp keep
      rw [attempts] at idle ⊢
      split
      · rename_i applies
        rw [if_pos applies, List.flatMap_cons, List.append_eq_nil_iff] at idle
        have same := here path code idle.1
        rw [codeAfter, List.foldl_cons, same]
        rw [same] at idle
        exact ih later idle.2
      · rename_i skipped
        rw [if_neg skipped] at idle
        exact ih later idle

/-! ### The shipped rules -/

theorem changes_attempt (code : List Char) {rule : MigrationRule} {outcome : Outcome RuleError}
    (applied : rule.apply path code = outcome) (succeeds : outcome.succeeded = true) :
    (attempt path code rule).changes = outcome.changes := by
  rw [attempt, applied, Attempt.changes, Attempt.succeeded, if_pos succeeds]

theorem changes_dataSourceUpgrade_eq_nil_iff {code : List Char} :
    (attempt path code .dataSourceUpgrade).changes = [] ↔
      ∀ document, Document.ofComponentFile? path code = some document →
        DataSourceUpgrade.edits document (Imports.ofDocument document) = [] := by
  have applied : MigrationRule.dataSourceUpgrade.apply path code =
      DataSourceUpgrade.run path code := rfl
  rw [DataSourceUpgrade.run] at applied
  cases parsed : Document.ofComponentFile? path code with
  | none =>
      rw [parsed] at applied
      rw [attempt, applied]
      exact ⟨fun _ _ found => (nomatch found), fun _ => rfl⟩
  | some document =>
      rw [parsed] at applied
      rw [changes_attempt code applied rfl, DataSourceUpgrade.changes_ofDocument_eq_nil_iff]
      simp

theorem keepsWhatItLeaves_dataSourceUpgrade : KeepsWhatItLeaves .dataSourceUpgrade := by
  intro path code none
  rw [changes_dataSourceUpgrade_eq_nil_iff] at none
  have applied : MigrationRule.dataSourceUpgrade.apply path code =
      DataSourceUpgrade.run path code := rfl
  rw [attempt, Attempt.handOn, applied, DataSourceUpgrade.run]
  cases parsed : Document.ofComponentFile? path code with
  | none => rfl
  | some document =>
      change (DataSourceUpgrade.ofDocument document).code.getD code = code
      rw [DataSourceUpgrade.code_ofDocument_of_idle (none document parsed),
        Document.source_of_ofComponentFile? parsed]
      rfl

section RenameRules

variable {rule : MigrationRule} {renames : List AttributeRename}
  (isRenames : rule.transform = .attributeRenames renames)

include isRenames

theorem apply_renames (code : List Char) :
    rule.apply path code = applyRenames renames path code := by
  rw [MigrationRule.apply, isRenames, Transform.run]

theorem changes_renames_eq_nil_iff {code : List Char} :
    (attempt path code rule).changes = [] ↔
      ∀ rename ∈ renames, rename.spans path code = [] := by
  rw [changes_attempt code (apply_renames isRenames code) rfl, changes_applyRenames_eq_nil_iff]

theorem keepsWhatItLeaves_renames : KeepsWhatItLeaves rule := by
  intro path code none
  rw [changes_renames_eq_nil_iff isRenames] at none
  rw [attempt, Attempt.handOn, apply_renames isRenames, code_applyRenames_of_idle none,
    Option.getD_some]

end RenameRules

theorem keepsWhatItLeaves_shipped : ∀ rule ∈ MigrationRule.shipped, KeepsWhatItLeaves rule := by
  intro rule member
  rcases MigrationRule.upgrade_or_renames member with rfl | isRenames
  · exact keepsWhatItLeaves_dataSourceUpgrade
  · exact keepsWhatItLeaves_renames isRenames

/-- Nothing that the shipped rules look for is left in a text. -/
structure Settled (options : MigrationOptions) (path : String) (code : List Char) : Prop where
  upgraded : appliesTo options code .dataSourceUpgrade = true →
    ∀ document, Document.ofComponentFile? path code = some document →
      DataSourceUpgrade.edits document (Imports.ofDocument document) = []
  renamed : ∀ rule ∈ MigrationRule.shipped, appliesTo options code rule = true →
    ∀ rename ∈ rule.renames, rename.spans path code = []

theorem settled_iff {code : List Char} :
    Settled options path code ↔
      (attempts options path code MigrationRule.shipped).flatMap Attempt.changes = [] := by
  rw [flatMap_changes_eq_nil_iff keepsWhatItLeaves_shipped]
  constructor
  · intro settled rule member applies
    have renamed := settled.renamed rule member applies
    rcases MigrationRule.upgrade_or_renames member with rfl | isRenames
    · exact changes_dataSourceUpgrade_eq_nil_iff.mpr (settled.upgraded applies)
    · exact (changes_renames_eq_nil_iff isRenames).mpr renamed
  · intro idle
    refine ⟨fun applies => ?_, fun rule member applies => ?_⟩
    · exact changes_dataSourceUpgrade_eq_nil_iff.mp (idle _ List.mem_cons_self applies)
    · have none := idle rule member applies
      rcases MigrationRule.upgrade_or_renames member with rfl | isRenames
      · exact fun rename listed => nomatch listed
      · exact (changes_renames_eq_nil_iff isRenames).mp none

/-- A run of the shipped rules makes no changes exactly on settled texts, and it returns those. -/
theorem migrate_settled (keeps : options.failurePolicy = .keepApplied) (path : String)
    (code : List Char) :
    ((migrate MigrationRule.shipped options path code).changes = [] ↔
        Settled options path code) ∧
      (Settled options path code →
        (migrate MigrationRule.shipped options path code).code = some code) := by
  rw [migrate_keepApplied path keeps]
  refine ⟨settled_iff.symm, fun settled => ?_⟩
  rw [settled_iff] at settled
  exact congrArg some (codeAfter_of_idle keepsWhatItLeaves_shipped settled)

/-! ## Texts that do not parse -/

def renameTexts (renames : List AttributeRename) (text : List Char) : List Char :=
  renames.foldl (fun text rename => rename.renameText text) text

def StaysUnparsed (path : String) (source : List Char) : Prop :=
  ∀ renames ∈ MigrationRule.shippedRenames.sublists,
    Document.ofComponentFile? path (renameTexts renames source) = none

instance (path : String) (source : List Char) : Decidable (StaysUnparsed path source) :=
  inferInstanceAs (Decidable (∀ renames ∈ MigrationRule.shippedRenames.sublists,
    Document.ofComponentFile? path (renameTexts renames source) = none))

def ruleText (options : MigrationOptions) (text : List Char) (rule : MigrationRule) : List Char :=
  if appliesTo options text rule then renameTexts rule.renames text else text

def textAfter (options : MigrationOptions) (rules : List MigrationRule) (text : List Char) :
    List Char :=
  rules.foldl (ruleText options) text

theorem renames_of_shipped {rule : MigrationRule} (shipped : rule ∈ MigrationRule.shipped) :
    rule.renames ⊆ MigrationRule.shippedRenames :=
  fun _ listed => List.mem_flatMap.mpr ⟨rule, shipped, listed⟩

theorem shippedRenames_proper : ∀ rename ∈ MigrationRule.shippedRenames,
    rename.IsProper ∧
      ∀ other ∈ MigrationRule.shippedRenames, rename.old.toList ≠ other.new.toList := by
  decide +kernel

theorem components_absent : ∀ rule ∈ MigrationRule.shipped, ∀ component ∈ rule.components,
    AttributeRename.IsWord component.toList ∧
      ∀ rename ∈ MigrationRule.shippedRenames,
        Text.occursIn component.toList rename.new.toList = false := by
  decide +kernel

section Chosen

variable {renames : List AttributeRename} (chosen : renames ⊆ MigrationRule.shippedRenames)

include chosen

theorem hasAttribute_of_renameTexts {rename : AttributeRename}
    (shipped : rename ∈ MigrationRule.shippedRenames) {text : List Char}
    (found : AttributeRename.hasAttribute rename.old.toList (renameTexts renames text) = true) :
    AttributeRename.hasAttribute rename.old.toList text = true := by
  induction renames generalizing text with
  | nil => exact found
  | cons first rest ih =>
      obtain ⟨isShipped, others⟩ := List.cons_subset.mp chosen
      have proper := (shippedRenames_proper first isShipped).1
      obtain ⟨word, notNew⟩ := shippedRenames_proper rename shipped
      exact (AttributeRename.hasAttribute_of_renameText proper word.old
        (notNew first isShipped) (ih others found)).1

/-- Once an attribute is renamed none of its old name is left, and no later rename brings one. -/
theorem hasAttribute_renameTexts {rename : AttributeRename} (member : rename ∈ renames)
    (text : List Char) :
    AttributeRename.hasAttribute rename.old.toList (renameTexts renames text) = false := by
  induction renames generalizing text with
  | nil => cases member
  | cons first rest ih =>
      obtain ⟨isShipped, others⟩ := List.cons_subset.mp chosen
      rcases List.mem_cons.mp member with rfl | later
      · obtain ⟨proper, notNew⟩ := shippedRenames_proper rename isShipped
        by_contra found
        rw [Bool.not_eq_false] at found
        have found := hasAttribute_of_renameTexts others isShipped found
        exact (AttributeRename.hasAttribute_of_renameText proper proper.old
          (notNew rename isShipped) found).2 rfl
      · exact ih others later _

theorem appliesTo_of_renameTexts {rule : MigrationRule} (shipped : rule ∈ MigrationRule.shipped)
    {text : List Char} (applies : appliesTo options (renameTexts renames text) rule = true) :
    appliesTo options text rule = true := by
  induction renames generalizing text with
  | nil => exact applies
  | cons first rest ih =>
      obtain ⟨isShipped, others⟩ := List.cons_subset.mp chosen
      have applies := ih others applies
      rw [appliesTo, Bool.and_eq_true] at applies ⊢
      refine ⟨applies.1, ?_⟩
      obtain ⟨component, listed, mentioned⟩ := List.any_eq_true.mp applies.2
      obtain ⟨word, absent⟩ := components_absent rule shipped component listed
      exact List.any_eq_true.mpr ⟨component, listed,
        AttributeRename.occursIn_of_renameText (shippedRenames_proper first isShipped).1 word
          (absent first isShipped) mentioned⟩

end Chosen

theorem renameTexts_append (first second : List AttributeRename) (text : List Char) :
    renameTexts (first ++ second) text = renameTexts second (renameTexts first text) :=
  List.foldl_append

theorem exists_textAfter_eq (options : MigrationOptions) (rules : List MigrationRule)
    (text : List Char) :
    ∃ renames : List AttributeRename, renames.Sublist (rules.flatMap MigrationRule.renames) ∧
      textAfter options rules text = renameTexts renames text := by
  induction rules generalizing text with
  | nil => exact ⟨[], .slnil, rfl⟩
  | cons rule rest ih =>
      rw [textAfter, List.foldl_cons, ← textAfter, List.flatMap_cons, ruleText]
      split
      · obtain ⟨renames, within, same⟩ := ih (renameTexts rule.renames text)
        refine ⟨rule.renames ++ renames, (List.Sublist.refl _).append within, ?_⟩
        rw [same, renameTexts_append]
      · obtain ⟨renames, within, same⟩ := ih text
        exact ⟨renames, within.trans (List.sublist_append_right _ _), same⟩

theorem renames_subset {rules : List MigrationRule} (within : rules ⊆ MigrationRule.shipped) :
    rules.flatMap MigrationRule.renames ⊆ MigrationRule.shippedRenames := by
  intro rename member
  obtain ⟨rule, listed, isRename⟩ := List.mem_flatMap.mp member
  exact renames_of_shipped (within listed) isRename

/-- A rule that applies to what the rules leave has been applied, so that it finds nothing. -/
theorem hasAttribute_textAfter {rules : List MigrationRule}
    (within : rules ⊆ MigrationRule.shipped) (text : List Char) :
    ∀ rule ∈ rules, appliesTo options (textAfter options rules text) rule = true →
      ∀ rename ∈ rule.renames,
        AttributeRename.hasAttribute rename.old.toList (textAfter options rules text) = false := by
  induction rules generalizing text with
  | nil => exact fun _ member => nomatch member
  | cons rule rest ih =>
      obtain ⟨isShipped, others⟩ := List.cons_subset.mp within
      rw [textAfter, List.foldl_cons, ← textAfter]
      refine List.forall_mem_cons.mpr ⟨fun applies rename member => ?_, ih others _⟩
      obtain ⟨later, isLater, same⟩ := exists_textAfter_eq options rest
        (ruleText options text rule)
      have laterShipped := List.Subset.trans isLater.subset (renames_subset others)
      rw [same] at applies ⊢
      have applied := appliesTo_of_renameTexts laterShipped isShipped applies
      have isTurn : appliesTo options text rule = true := by
        by_contra skipped
        rw [ruleText, if_neg skipped] at applied
        exact skipped applied
      have own := renames_of_shipped isShipped
      by_contra found
      rw [Bool.not_eq_false] at found
      have found := hasAttribute_of_renameTexts laterShipped (own member) found
      rw [ruleText, if_pos isTurn, hasAttribute_renameTexts own member text] at found
      cases found

/-! ### Runs on such texts -/

theorem spans_of_unparsed {rename : AttributeRename} {code : List Char}
    (unparsed : Document.ofComponentFile? path code = none) :
    rename.spans path code = AttributeRename.textSpans rename.old.toList code := by
  rw [AttributeRename.spans, unparsed]

theorem renameStep_of_unparsed {rename : AttributeRename} (proper : rename.IsProper)
    {reached : List Char × List Change}
    (unparsed : Document.ofComponentFile? path reached.1 = none) :
    (renameStep path reached rename).1 = rename.renameText reached.1 := by
  rw [renameStep, AttributeRename.apply, spans_of_unparsed unparsed]
  exact AttributeRename.perform_textSpans proper.old reached.1

theorem foldl_renameStep_of_unparsed {renames : List AttributeRename}
    (chosen : renames ⊆ MigrationRule.shippedRenames) {reached : List Char × List Change}
    (unparsed : ∀ front, front <+: renames →
      Document.ofComponentFile? path (renameTexts front reached.1) = none) :
    (renames.foldl (renameStep path) reached).1 = renameTexts renames reached.1 := by
  induction renames generalizing reached with
  | nil => rfl
  | cons rename rest ih =>
      obtain ⟨isShipped, others⟩ := List.cons_subset.mp chosen
      have here := renameStep_of_unparsed (shippedRenames_proper rename isShipped).1
        (unparsed [] List.nil_prefix)
      rw [List.foldl_cons, ih others, here]
      · rfl
      · intro front isFront
        rw [here]
        exact unparsed (rename :: front) (List.cons_prefix_cons.mpr ⟨rfl, isFront⟩)

theorem handOn_of_unparsed {rule : MigrationRule} (shipped : rule ∈ MigrationRule.shipped)
    {code : List Char}
    (unparsed : ∀ front, front <+: rule.renames →
      Document.ofComponentFile? path (renameTexts front code) = none) :
    (attempt path code rule).handOn code = renameTexts rule.renames code := by
  have renamed : (rule.renames.foldl (renameStep path) (code, [])).1 =
      renameTexts rule.renames code :=
    foldl_renameStep_of_unparsed (renames_of_shipped shipped) unparsed
  rcases MigrationRule.upgrade_or_renames shipped with rfl | isRenames
  · have applied : MigrationRule.dataSourceUpgrade.apply path code =
        DataSourceUpgrade.run path code := rfl
    have parsed : Document.ofComponentFile? path code = none := unparsed [] List.nil_prefix
    rw [DataSourceUpgrade.run, parsed] at applied
    rw [attempt, applied]
    rfl
  · rw [attempt, apply_renames isRenames, applyRenames_eq]
    exact renamed

theorem codeAfter_of_unparsed {rules : List MigrationRule}
    (within : rules ⊆ MigrationRule.shipped) {code : List Char}
    (unparsed : ∀ renames : List AttributeRename,
      renames.Sublist (rules.flatMap MigrationRule.renames) →
        Document.ofComponentFile? path (renameTexts renames code) = none) :
    codeAfter code (attempts options path code rules) = textAfter options rules code := by
  induction rules generalizing code with
  | nil => rfl
  | cons rule rest ih =>
      obtain ⟨isShipped, others⟩ := List.cons_subset.mp within
      rw [List.flatMap_cons] at unparsed
      rw [attempts, textAfter, List.foldl_cons, ← textAfter, ruleText]
      split
      · have handed := handOn_of_unparsed isShipped fun front isFront =>
          unparsed front (isFront.sublist.trans (List.sublist_append_left _ _))
        rw [codeAfter, List.foldl_cons, ← codeAfter, handed]
        apply ih others
        intro renames isSublist
        rw [← renameTexts_append]
        exact unparsed _ ((List.Sublist.refl _).append isSublist)
      · apply ih others
        intro renames isSublist
        exact unparsed renames (isSublist.trans (List.sublist_append_right _ _))

/-- Where a text does not parse and goes on not to parse, one run does all there is to do. -/
theorem rerun_of_unparsed (keeps : options.failurePolicy = .keepApplied) {source : List Char}
    (unparsed : StaysUnparsed path source) :
    ∃ code, (migrate MigrationRule.shipped options path source).code = some code ∧
      (migrate MigrationRule.shipped options path code).changes = [] ∧
        (migrate MigrationRule.shipped options path code).code = some code := by
  have everywhere : ∀ renames : List AttributeRename,
      renames.Sublist (MigrationRule.shipped.flatMap MigrationRule.renames) →
        Document.ofComponentFile? path (renameTexts renames source) = none :=
    fun renames isSublist => unparsed renames (List.mem_sublists.mpr isSublist)
  have left : codeAfter source (attempts options path source MigrationRule.shipped) =
      textAfter options MigrationRule.shipped source :=
    codeAfter_of_unparsed (List.Subset.refl _) everywhere
  obtain ⟨renames, isSublist, same⟩ :=
    exists_textAfter_eq options MigrationRule.shipped source
  have settled : Settled options path (textAfter options MigrationRule.shipped source) := by
    have parsed : Document.ofComponentFile? path
        (textAfter options MigrationRule.shipped source) = none := same ▸ everywhere _ isSublist
    refine ⟨fun _ document found => ?_, fun rule member applies rename listed => ?_⟩
    · rw [parsed] at found
      cases found
    · have proper := (shippedRenames_proper rename (renames_of_shipped member listed)).1
      rw [spans_of_unparsed parsed, AttributeRename.textSpans_eq_nil_iff proper.old]
      exact hasAttribute_textAfter (List.Subset.refl _) source rule member applies rename listed
  obtain ⟨idle, returned⟩ := migrate_settled keeps path
    (textAfter options MigrationRule.shipped source)
  refine ⟨_, ?_, idle.mpr settled, returned settled⟩
  rw [migrate_keepApplied path keeps]
  exact congrArg some left

-- an unclosed tag with an attribute that is renamed
example : StaysUnparsed "a.tsx" "<ArchbaseFormTemplate validation=\x7brules\x7d".toList := by
  decide +kernel

/-! ## Texts that one run does not settle -/

/-- Whether a second run of the shipped rules makes no changes and returns what the first one
left. -/
def isDoneAtOnce (path : String) (source : List Char) : Bool :=
  (migrate MigrationRule.shipped default path source).code.all fun code =>
    let again := migrate MigrationRule.shipped default path code
    again.changes.isEmpty && again.code = some code

/-- An attribute between two texts that make it up once more. -/
def splitAttribute : List Char :=
  "const x = <ArchbaseEdit dataSource=\x7bds\x7d force ".toList ++
    "forceUpdate=\x7btrue\x7dUpdate />;\n".toList

/-- A statement between the method and the arguments of another call. -/
def splitCall : List Char :=
  "import \x7b ArchbaseEdit \x7d from '@archbase/react';\n".toList ++
    "ds.forceUpdate\nds.forceUpdate();\n(1);\n".toList

theorem splitTexts_not_done :
    isDoneAtOnce "src/App.tsx" splitAttribute = false ∧
      isDoneAtOnce "src/App.tsx" splitCall = false := by
  decide +kernel

end Pipeline

end ComponentSurvey
