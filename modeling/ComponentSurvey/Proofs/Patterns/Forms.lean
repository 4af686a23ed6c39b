import ComponentSurvey.Patterns.Observation
import Mathlib.Data.List.Basic

/-!
# Forms among the usages

A tag that reads like a tracked component may render one of the user's own.  Usages leave such tags
out, but forms are counted by what their tags read: all form usages, and besides them the forms that
other modules supply.
-/

namespace ComponentSurvey

open Syntax

variable {document : Document} {imports : Imports}

/-- Whether a tag leads to the library: by a name that no other module supplies, or by a member of
a part of the library that goes by its own name. -/
def leadsToLibrary (document : Document) (imports : Imports) (element : Node) : Bool :=
  (element.child? .name).any fun tag =>
    match tag.kind with
    | .identifier => (imports.resolve? (document.text tag)).all Binding.isLibrary
    | .memberExpression | .nestedIdentifier =>
      (tag.child? .object).any fun object =>
        object.kind = .identifier &&
          (imports.resolve? (document.text object)).any fun binding =>
            binding.isLibrary && !binding.isAliased
    | _ => false

def resolvedName? (document : Document) (imports : Imports) (element : Node) : Option String :=
  ((element.child? .name).bind (resolveTag? document imports)).map ResolvedTag.name

private theorem resolved_identifier {tag : Node} (kind : tag.kind = .identifier) :
    (resolveTag? document imports tag).map ResolvedTag.name =
      (some (imports.canonical (document.text tag))).filter fun name =>
        Library.isTracked name &&
          (imports.resolve? (document.text tag)).all Binding.isLibrary := by
  simp only [resolveTag?, kind, Imports.canonical]
  cases imports.resolve? (document.text tag) with
  | none => simp [Option.filter_some]
  | some binding =>
      cases library : binding.isLibrary with
      | false => simp [library]
      | true => simp [library, Option.filter_some]

private theorem resolved_member {tag : Node}
    (kind : tag.kind = .memberExpression ∨ tag.kind = .nestedIdentifier) :
    (resolveTag? document imports tag).map ResolvedTag.name =
      ((tag.child? .property).map document.text).filter fun name =>
        Library.isTracked name &&
          (tag.child? .object).any fun object =>
            object.kind = .identifier &&
              (imports.resolve? (document.text object)).any fun binding =>
                binding.isLibrary && !binding.isAliased := by
  have unfolded : resolveTag? document imports tag =
      (tag.child? .object).bind fun object => (tag.child? .property).bind fun property =>
        if object.kind ≠ .identifier then none
        else (imports.resolve? (document.text object)).bind fun binding =>
          if !binding.isLibrary || binding.isAliased then none
          else if Library.isTracked (document.text property) then
            some ⟨document.text property, binding.source, true⟩
          else none := by
    rcases kind with kind | kind <;> simp only [resolveTag?, kind] <;> rfl
  rw [unfolded]
  cases tag.child? .object with
  | none => simp
  | some object =>
      cases tag.child? .property with
      | none => simp
      | some property =>
          by_cases plain : object.kind = .identifier
          · cases found : imports.resolve? (document.text object) with
            | none => simp [plain, found]
            | some binding =>
                cases library : binding.isLibrary <;> cases aliased : binding.isAliased <;>
                  simp [plain, found, library, aliased, Option.filter_some]
          · simp [plain]

/-- A tag is resolved to what it reads as, if that is tracked and the tag leads to the library. -/
theorem resolvedName?_eq_filter (element : Node) :
    resolvedName? document imports element =
      (tagName? document imports element).filter fun name =>
        Library.isTracked name && leadsToLibrary document imports element := by
  rw [resolvedName?, tagName?, leadsToLibrary]
  cases element.child? .name with
  | none => rfl
  | some tag =>
      simp only [Option.bind_some, Option.any_some]
      split
      · rename_i kind
        simpa only [kind] using resolved_identifier kind
      · rename_i kind
        simpa only [kind] using resolved_member (.inl kind)
      · rename_i kind
        simpa only [kind] using resolved_member (.inr kind)
      · rename_i notName notMember notNested
        simp [resolveTag?]

theorem name_of_usageAt? (battery : List Predicate) (document : Document) (evidence : Evidence)
    (site : Site) :
    (usageAt? battery document evidence site).map Usage.name =
      resolvedName? document evidence.imports site.node := by
  rw [usageAt?, resolvedName?]
  cases site.node.child? .name with
  | none => rfl
  | some tag => cases found : resolveTag? document evidence.imports tag <;> simp [found]

def readsAsForm (document : Document) (imports : Imports) (node : Node) : Bool :=
  isTag node.kind && tagName? document imports node = some formTemplate

/-- The tags that read like a form of the library and are none. -/
def foreignForms (document : Document) : List Site :=
  let imports := Imports.ofDocument document
  document.sites.filter fun site =>
    readsAsForm document imports site.node && !leadsToLibrary document imports site.node

theorem isNamed_usageAt? (battery : List Predicate) (document : Document) (site : Site)
    {name : String} (tracked : Library.isTracked name = true) :
    ((usageAt? battery document (Evidence.ofDocument document) site).map
        fun usage => decide (usage.name = name)).getD false =
      (tagName? document (Imports.ofDocument document) site.node = some name &&
        leadsToLibrary document (Imports.ofDocument document) site.node) := by
  have named := name_of_usageAt? battery document (Evidence.ofDocument document) site
  rw [resolvedName?_eq_filter] at named
  have asked : ((usageAt? battery document (Evidence.ofDocument document) site).map
      fun usage => decide (usage.name = name)).getD false =
      decide ((usageAt? battery document (Evidence.ofDocument document) site).map Usage.name =
        some name) := by
    cases usageAt? battery document (Evidence.ofDocument document) site <;> simp
  rw [asked, named, Bool.eq_iff_iff, decide_eq_true_eq, Option.filter_eq_some_iff, tracked,
    Bool.true_and, Bool.and_eq_true, decide_eq_true_eq]
  rfl

theorem countP_usages (battery : List Predicate) (document : Document) {name : String}
    (tracked : Library.isTracked name = true) :
    (extractUsages battery document).countP (fun usage => usage.name = name) =
      document.sites.countP fun site =>
        isTag site.node.kind &&
          (tagName? document (Imports.ofDocument document) site.node = some name &&
            leadsToLibrary document (Imports.ofDocument document) site.node) := by
  rw [extractUsages, usagesOf, List.countP_filterMap, List.countP_filter]
  refine List.countP_congr fun site visited => ?_
  rw [isNamed_usageAt? battery document site tracked, Bool.and_comm]

theorem length_formsOf (document : Document) (imports : Imports) :
    (formsOf document imports).length =
      document.sites.countP fun site => readsAsForm document imports site.node := by
  rw [formsOf, List.length_map, ← List.countP_eq_length_filter]
  rfl

/-- The forms of an observation are the form usages and the forms that are not the library's. -/
theorem length_forms_eq (document : Document) :
    (FileObservation.ofDocument document).forms.length =
      (FileObservation.ofDocument document).usages.countP
          (fun usage => usage.name = formTemplate) +
        (foreignForms document).length := by
  let imports := Imports.ofDocument document
  have usages := countP_usages Predicate.standard document
    (show Library.isTracked formTemplate = true by decide)
  have foreign : (foreignForms document).length = document.sites.countP fun site =>
      readsAsForm document imports site.node && !leadsToLibrary document imports site.node := by
    rw [foreignForms, ← List.countP_eq_length_filter]
  have parted := List.countP_eq_countP_filter_add document.sites
    (fun site => readsAsForm document imports site.node)
    (fun site => leadsToLibrary document imports site.node)
  change (formsOf document imports).length = (extractUsages _ document).countP _ + _
  rw [length_formsOf, parted, usages, foreign, List.countP_filter, List.countP_filter]
  simp only [readsAsForm, Bool.and_assoc]
  rfl

theorem length_forms_eq_usages_iff (document : Document) :
    (FileObservation.ofDocument document).forms.length =
        (FileObservation.ofDocument document).usages.countP
          (fun usage => usage.name = formTemplate) ↔
      ∀ site ∈ document.sites, readsAsForm document (Imports.ofDocument document) site.node = true →
        leadsToLibrary document (Imports.ofDocument document) site.node = true := by
  rw [length_forms_eq, Nat.add_eq_left, List.length_eq_zero_iff, foreignForms,
    List.filter_eq_nil_iff]
  simp only [Bool.and_eq_true, Bool.not_eq_true', not_and, Bool.not_eq_false]

/-- Forms of the user's own, one by its name and one by that of its module. -/
def ownForms : List Char :=
  ("import \x7b ArchbaseFormTemplate \x7d from './forms';\n" ++
    "import * as Local from './local';\n" ++
    "export const First = () => <ArchbaseFormTemplate layout=\"horizontal\" />;\n" ++
    "export const Second = () => <Local.ArchbaseFormTemplate layout=\"horizontal\" />;\n").toList

-- neither is a usage, and both are counted as forms
theorem ownForms_counted :
    (Document.ofComponentFile? "src/Forms.tsx" ownForms).map (fun document =>
        let observed := FileObservation.ofDocument document
        (observed.forms.length,
          observed.usages.countP fun usage => usage.name = formTemplate)) =
      some (2, 0) := by
  decide +kernel

end ComponentSurvey
