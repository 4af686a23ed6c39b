import ComponentSurvey.Proofs.Migration.AttributeRemoval
import ComponentSurvey.Proofs.Migration.IssueCounts
import ComponentSurvey.Proofs.Migration.RenameTurns
import Mathlib.Data.List.Nodup

/-!
# Attributes that come to have one name

A rename looks at each attribute on its own.  Where a tag has the new name already, the old one
becomes a second of that name; and that is the only way for the renames of the shipped rules to
double a name.
-/

namespace ComponentSurvey

open Syntax Text

namespace AttributeRename

variable {path : String} {source : List Char} {document : Document}

/-- Where an attribute's name comes to stand the renamed text reads that name, or the new one in the
place of the old one. -/
theorem spells_moved (parsed : Document.ofComponentFile? path source = some document)
    (rename : AttributeRename) {attr found : Node}
    (isAttribute : attr ∈ document.nodesOfKind .jsxAttribute)
    (names : IsNameOf attr found) :
    let turn := RenameTurn.ofText path source rename
    let name := if document.text found = rename.old then rename.new else document.text found
    let start := Edit.moved turn.edits found.start
    Spells turn.left name.toList ⟨start, start + byteLength name.toList⟩ := by
  intro turn name start
  obtain rfl := Document.source_of_ofComponentFile? parsed
  have grammatical := Document.grammatical_of_ofComponentFile? parsed
  have replaces : turn.Replaces := RenameTurn.replaces_ofText path document.source rename
  have spans : turn.spans = attributeSpans document rename.old := by
    simp only [turn, RenameTurn.ofText, AttributeRename.spans, parsed]
  have production := production_of_isNameOf grammatical isAttribute names
  have covers := production.covers names.kind
  have placement : ∀ edit ∈ turn.edits, document.text found = rename.old ∧
      edit.start = found.start ∨ edit.stop ≤ found.start ∨ found.stop ≤ edit.start := by
    refine List.forall_mem_map.mpr fun span member => ?_
    rw [spans] at member
    exact start_eq_or_apart grammatical isAttribute names member
  rw [replaces.left_eq]
  by_cases isOld : document.text found = rename.old
  · have listed : ⟨found.start, found.stop⟩ ∈ turn.spans :=
      spans ▸ mem_attributeSpans.mpr ⟨attr, isAttribute, found, names, isOld, rfl⟩
    obtain ⟨front, back, performed, length⟩ := Edit.exists_replaced replaces.placed replaces.whole
      (List.mem_map_of_mem listed) covers fun edit member => by
        rcases placement edit member with ⟨-, same⟩ | before | behind
        · exact .inr same.ge
        · exact .inl before
        · exact .inr (covers.le.trans behind)
    refine ⟨front, back, ?_, length, rfl⟩
    simp only [name, if_pos isOld]
    exact performed
  · obtain ⟨front, back, performed, length⟩ := Edit.exists_copied replaces.placed replaces.whole
      production.starts production.stops covers.le fun edit member =>
        (placement edit member).resolve_left fun replaced => isOld replaced.1
    refine ⟨front, back, ?_, length, rfl⟩
    simp only [name, if_neg isOld, Document.text, String.toList_ofList]
    exact performed

end AttributeRename

namespace MigrationRule

variable {rename : AttributeRename} {renames : List AttributeRename} {names : List String}

theorem nodup_renameName_iff (distinct : names.Nodup) (proper : rename.old ≠ rename.new) :
    (renameName names rename).Nodup ↔ ¬ (rename.old ∈ names ∧ rename.new ∈ names) := by
  rw [renameName, List.nodup_map_iff_inj_on distinct]
  constructor
  · rintro injective ⟨old, new⟩
    exact proper (injective _ old _ new (by simp))
  · intro apart first isFirst second isSecond same
    split_ifs at same with isOld alsoOld alsoOld
    · rw [isOld, alsoOld]
    · exact absurd ⟨isOld ▸ isFirst, same ▸ isSecond⟩ apart
    · exact absurd ⟨alsoOld ▸ isSecond, same ▸ isFirst⟩ apart
    · exact same

theorem nodup_of_foldl_renameName (distinct : (renames.foldl renameName names).Nodup) :
    names.Nodup := by
  induction renames generalizing names with
  | nil => exact distinct
  | cons rename rest ih => exact .of_map _ (ih distinct)

def Independent (first second : AttributeRename) : Prop :=
  (second.old ≠ first.old ∧ second.old ≠ first.new) ∧
    second.new ≠ first.old ∧ second.new ≠ first.new

instance (first second : AttributeRename) : Decidable (Independent first second) :=
  inferInstanceAs (Decidable ((second.old ≠ first.old ∧ second.old ≠ first.new) ∧
    second.new ≠ first.old ∧ second.new ≠ first.new))

theorem nodup_foldl_renameName_iff (distinct : names.Nodup)
    (proper : ∀ rename ∈ renames, rename.old ≠ rename.new)
    (independent : renames.Pairwise Independent) :
    (renames.foldl renameName names).Nodup ↔
      ∀ rename ∈ renames, ¬ (rename.old ∈ names ∧ rename.new ∈ names) := by
  induction renames generalizing names with
  | nil => simpa using distinct
  | cons rename rest ih =>
      obtain ⟨here, others⟩ := List.forall_mem_cons.mp proper
      obtain ⟨apart, later⟩ := List.pairwise_cons.mp independent
      rw [List.foldl_cons, List.forall_mem_cons, ← nodup_renameName_iff distinct here]
      by_cases still : (renameName names rename).Nodup
      · rw [ih still others later, and_iff_right still]
        refine forall₂_congr fun other listed => ?_
        obtain ⟨⟨oldOld, oldNew⟩, newOld, newNew⟩ := apart other listed
        simp [mem_renameName, oldOld, oldNew, newOld, newNew]
      · exact iff_of_false (mt nodup_of_foldl_renameName still) fun both => still both.1

theorem shippedRenames_independent :
    (∀ rename ∈ shippedRenames, rename.old ≠ rename.new ∧
        rename.old ≠ DataSourceUpgrade.updateMethod ∧ rename.new ≠ DataSourceUpgrade.updateMethod) ∧
      shippedRenames.Pairwise Independent := by
  decide

/-- Whichever renames of the shipped rules are carried out, names that are told apart before are so
afterwards, unless the old and the new name of one rename were both there. -/
theorem nodup_migratedNames_iff (chosen : renames.Sublist shippedRenames)
    (distinct : names.Nodup) :
    (migratedNames renames names).Nodup ↔
      ∀ rename ∈ renames, ¬ (rename.old ∈ names ∧ rename.new ∈ names) := by
  obtain ⟨proper, independent⟩ := shippedRenames_independent
  rw [migratedNames, nodup_foldl_renameName_iff (distinct.filter _)
    (fun rename listed => (proper rename (chosen.subset listed)).1) (independent.sublist chosen)]
  refine forall₂_congr fun rename listed => ?_
  obtain ⟨-, old, new⟩ := proper rename (chosen.subset listed)
  simp [old, new]

example : migratedNames shippedRenames ["validation", "label", "validationRules"] =
    ["validationRules", "label", "validationRules"] := by decide

end MigrationRule

/-- No tag of the document has two attributes of one name. -/
def distinctAttributes (document : Document) : Bool :=
  (DataSourceUpgrade.tagOutlines document).all fun tag => tag.attributes.Nodup

def validatedForm : List Char :=
  "const f = <ArchbaseFormTemplate validation=\x7ba\x7d validationRules=\x7bb\x7d />;\n".toList

theorem validatedForm_doubled :
    (Document.ofComponentFile? "src/App.tsx" validatedForm).map distinctAttributes = some true ∧
      ((Pipeline.migrate MigrationRule.shipped default "src/App.tsx" validatedForm).code.bind
          (Document.ofComponentFile? "src/App.tsx")).map distinctAttributes = some false := by
  decide +kernel

end ComponentSurvey
