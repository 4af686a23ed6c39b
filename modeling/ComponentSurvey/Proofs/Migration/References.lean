import ComponentSurvey.Proofs.Migration.PlannedEdits

/-!
# References to renamed imports

A renamed import takes the identifiers and the type names that read like it along, wherever they
stand.  Properties in shorthand read like it too and keep the old name; the last part of a type
and the names of a reexport may belong to another module and are renamed all the same.
-/

namespace ComponentSurvey.DataSourceUpgrade

open Syntax Text

variable {document : Document} {imports : Imports} {site : Site}

/-! ## Names that have a successor -/

theorem mem_factoryRenames {old new : String} (successor : renamed? old = some new) :
    (old, new) ∈ factoryRenames := by
  obtain ⟨⟨first, second⟩, found, rfl⟩ := Option.map_eq_some_iff.mp successor
  have same : first = old := by simpa using List.find?_some found
  exact same ▸ List.mem_of_find?_eq_some found

theorem old_ne_empty {old new : String} (successor : renamed? old = some new) : old ≠ "" := by
  have named : ∀ entry ∈ factoryRenames, entry.1 ≠ "" := by decide
  exact named _ (mem_factoryRenames successor)

theorem successor_of_mem_renamedLocals {old : String}
    (listed : old ∈ renamedLocals document imports) : ∃ new, renamed? old = some new := by
  obtain ⟨entry, unaliased, rfl⟩ := List.mem_map.mp listed
  have renamed := mem_renamedImports.mp (List.mem_filter.mp unaliased).1
  obtain ⟨specifier, -, -, said⟩ := mem_factoryImports renamed.1
  exact ⟨entry.new, said.new⟩

theorem start_lt_stop_of_text {node : Node} (reads : document.text node ≠ "") :
    node.start < node.stop := by
  by_contra empty
  have none : node.stop - node.start = 0 := by omega
  apply reads
  rw [Document.text, Document.chars, slice, none, takeBytes_zero]

/-! ## Where new names come from -/

namespace Renaming

variable {node : Node} {new : String}

theorem successor (given : Renaming document imports node new) :
    renamed? (document.text node) = some new := by
  cases given with
  | imported renamed =>
      obtain ⟨specifier, -, -, said⟩ := mem_factoryImports (mem_renamedImports.mp renamed).1
      exact said.old ▸ said.new
  | referred visited followed listed outside successor => exact successor
  | qualified visited parts library successor => exact successor

theorem start_lt_stop (given : Renaming document imports node new) : node.start < node.stop :=
  start_lt_stop_of_text (old_ne_empty given.successor)

/-- A node is given a new name as the name in a specifier of the library, as what refers to a
renamed import, or as the last part of a name that a namespace of the library leads. -/
theorem at_site (given : Renaming document imports site.node new)
    (visited : site ∈ document.sites) :
    (isSpecified site = true ∧ ∃ specifier ancestors,
        site.ancestors = specifier :: ancestors ∧ IsLibrarySpecifier document ancestors) ∨
      (isFollowed site.node.kind = true ∧
        document.text site.node ∈ renamedLocals document imports ∧ isSpecified site = false) ∨
      ∃ dotted ancestors object, site.ancestors = dotted :: ancestors ∧
        dottedParts? dotted = some (object, site.node) ∧
        namesLibrary document imports object = true := by
  have covers := given.start_lt_stop
  generalize same : site.node = node at given covers
  cases given with
  | @imported entry renamed =>
      obtain ⟨specifier, listed, kind, said⟩ := mem_factoryImports (mem_renamedImports.mp renamed).1
      have below := Document.child_mem_sites listed (Node.mem_children_of_child? said.name)
      have here := Document.site_unique visited below same (same ▸ covers)
      subst here
      refine .inl ⟨?_, specifier.node, specifier.ancestors, rfl, said.library⟩
      simp [isSpecified, Site.parent?, kind]
  | @referred other new listed followed reads outside successor =>
      have here := Document.site_unique visited listed same (same ▸ covers)
      subst here
      exact .inr (.inl ⟨followed, reads, outside⟩)
  | @qualified dotted object node new listed parts library successor =>
      have below := Document.child_mem_sites listed (dottedParts?_children parts).2
      have here := Document.site_unique visited below same (same ▸ covers)
      subst here
      exact .inr (.inr ⟨dotted.node, dotted.ancestors, object, rfl, parts, library⟩)

end Renaming

/-! ## What follows a renamed import -/

/-- A name outside import specifiers that no namespace of the library leads is renamed exactly if
it is an identifier or a type name and reads like a renamed import. -/
theorem renamed_iff (visited : site ∈ document.sites) (outside : isSpecified site = false)
    (foreign : ∀ dotted ancestors object, site.ancestors = dotted :: ancestors →
      dottedParts? dotted = some (object, site.node) →
      namesLibrary document imports object = false) :
    (∃ new, Renaming document imports site.node new) ↔
      isFollowed site.node.kind = true ∧
        document.text site.node ∈ renamedLocals document imports := by
  constructor
  · rintro ⟨new, given⟩
    rcases given.at_site visited with ⟨specified, -⟩ | ⟨followed, listed, -⟩ |
      ⟨dotted, ancestors, object, above, parts, library⟩
    · rw [outside] at specified
      cases specified
    · exact ⟨followed, listed⟩
    · rw [foreign dotted ancestors object above parts] at library
      cases library
  · rintro ⟨followed, listed⟩
    obtain ⟨new, successor⟩ := successor_of_mem_renamedLocals listed
    exact ⟨new, .referred visited followed listed outside successor⟩

theorem Renaming.covered {node : Node} {new : String}
    (given : Renaming document imports node new) :
    ∃ edit ∈ Edit.kept (edits document imports),
      edit.start ≤ node.start ∧ node.start < edit.stop := by
  obtain ⟨description, planned⟩ := planned_of_renaming given
  obtain ⟨holder, kept, precedes, covers⟩ := Edit.covered_kept planned given.start_lt_stop
  exact ⟨holder, kept, Edit.start_le_of_precedes precedes, covers⟩

def IsCopied (document : Document) (imports : Imports) (node : Node) : Prop :=
  ∀ edit ∈ Edit.kept (edits document imports),
    edit.stop ≤ node.start ∨ node.stop ≤ edit.start

/-- Outside import specifiers a name refers to what it reads as an identifier, as the name of a
type or as a property in shorthand. -/
def isReference (site : Site) : Bool :=
  (isFollowed site.node.kind || site.node.kind = .shorthandPropertyIdentifier) &&
    !isSpecified site

theorem shorthand_of_isCopied (visited : site ∈ document.sites)
    (reference : isReference site = true)
    (listed : document.text site.node ∈ renamedLocals document imports)
    (copied : IsCopied document imports site.node) :
    site.node.kind = .shorthandPropertyIdentifier := by
  simp only [isReference, Bool.and_eq_true, Bool.or_eq_true, decide_eq_true_eq,
    Bool.not_eq_true'] at reference
  obtain ⟨followed | shorthand, outside⟩ := reference
  · obtain ⟨new, successor⟩ := successor_of_mem_renamedLocals listed
    have given : Renaming document imports site.node new :=
      .referred visited followed listed outside successor
    obtain ⟨edit, kept, before, covers⟩ := given.covered
    have spans := given.start_lt_stop
    have apart := copied edit kept
    omega
  · exact shorthand

/-- In the place of every identifier and type name that refers to a renamed import stands what an
edit puts there, between what becomes of the text before it and of the text behind it. -/
theorem code_of_reference (visited : site ∈ document.sites)
    (listed : document.text site.node ∈ renamedLocals document (Imports.ofDocument document))
    (outside : isSpecified site = false) (followed : isFollowed site.node.kind = true) :
    ∃ edit before behind,
      edit.start ≤ site.node.start ∧ site.node.start < edit.stop ∧
        Edit.kept (edits document (Imports.ofDocument document)) = before ++ edit :: behind ∧
        (ofDocument document).code =
          some (Edit.between document.source edit.start 0 before ++ edit.replacement ++
            Edit.between document.source (byteLength document.source) edit.stop behind) := by
  obtain ⟨new, successor⟩ := successor_of_mem_renamedLocals listed
  obtain ⟨edit, kept, before, covers⟩ :=
    (Renaming.referred visited followed listed outside successor).covered
  have placed := Edit.placed_kept (edits_fit document (Imports.ofDocument document))
  obtain ⟨front, behind, parts, text⟩ := Edit.between_of_mem document.source placed kept
  exact ⟨edit, front, behind, before, covers, parts, by rw [code_ofDocument, text]⟩

theorem code_of_isCopied (visited : site ∈ document.sites)
    (copied : IsCopied document (Imports.ofDocument document) site.node) :
    ∃ before behind,
      Edit.kept (edits document (Imports.ofDocument document)) = before ++ behind ∧
        (ofDocument document).code =
          some (Edit.between document.source site.node.start 0 before ++
            stretch document.source site.node.start site.node.stop ++
            Edit.between document.source (byteLength document.source) site.node.stop
              behind) := by
  have lies := Document.liesIn_of_mem_sites visited
  have placed := Edit.placed_kept (edits_fit document (Imports.ofDocument document))
  obtain ⟨before, behind, parts, text⟩ := Edit.between_of_apart document.source placed
    (Nat.zero_le _) (site.node.start_le_stop lies.ordered) lies.le_stop copied
  exact ⟨before, behind, parts, by rw [code_ofDocument, text]⟩

/-- Whether a text and its upgrade, if both parse, stand in a relation. -/
def upgradeRelates (path : String) (source : List Char) (related : Document → Document → Bool) :
    Bool :=
  (Document.ofComponentFile? path source).all fun before =>
    ((ofDocument before).code.bind (Document.ofComponentFile? path)).all (related before)

def referenceNames (document : Document) : List String :=
  (document.sites.filter isReference).map fun site => document.text site.node

/-- Nothing in the upgraded text refers to an import by the name that the upgrade took from it. -/
def followsImports (path : String) (source : List Char) : Bool :=
  upgradeRelates path source fun before after =>
    (renamedLocals before (Imports.ofDocument before)).all fun old =>
      !(referenceNames after).contains old

def registry : List Char :=
  "import \x7b ArchbaseDataSource \x7d from '@archbase/react';\n".toList ++
    "export const registry = \x7b ArchbaseDataSource \x7d;\n".toList

-- the property refers to a name that nothing binds any more
theorem registry_unbound :
    (((run "src/App.tsx" registry).code.bind
          (Document.ofComponentFile? "src/App.tsx")).map fun document =>
        (referenceNames document, (Imports.ofDocument document).bindings.map Binding.localName)) =
        some (["registry", "ArchbaseDataSource"], ["ArchbaseRemoteDataSource"]) ∧
      followsImports "src/App.tsx" registry = false := by
  decide +kernel

/-! ## Names of other modules -/

/-- The last part of a dotted name that another module leads is renamed like any reference: if it
is of a followed kind, as it is in types, and reads like a renamed import. -/
theorem last_renamed_iff {dotted : Site} (visited : dotted ∈ document.sites) {object last : Node}
    (parts : dottedParts? dotted.node = some (object, last))
    (foreign : namesLibrary document imports object = false) :
    (∃ new, Renaming document imports last new) ↔
      isFollowed last.kind = true ∧ document.text last ∈ renamedLocals document imports := by
  refine renamed_iff (Document.child_mem_sites visited (dottedParts?_children parts).2) ?_ ?_
  · rcases isDotted_of_dottedParts? parts with kind | kind <;>
      simp [isSpecified, Site.parent?, kind]
  · intro other ancestors otherObject above otherParts
    obtain ⟨rfl, rfl⟩ := List.cons.inj above
    obtain ⟨rfl, -⟩ := Prod.mk.inj (Option.some.inj (parts.symm.trans otherParts))
    exact foreign

/-- A name in a specifier of a reexport is renamed like any reference: the module that the
reexport names is not looked at. -/
theorem reexported_renamed_iff {specifier : Site} (visited : specifier ∈ document.sites)
    (kind : specifier.node.kind = .exportSpecifier) {part : Node}
    (below : part ∈ specifier.node.children) :
    (∃ new, Renaming document imports part new) ↔
      isFollowed part.kind = true ∧ document.text part ∈ renamedLocals document imports := by
  refine renamed_iff (Document.child_mem_sites visited below) ?_ ?_
  · simp [isSpecified, Site.parent?, kind]
  · intro dotted ancestors object above parts
    obtain ⟨rfl, rfl⟩ := List.cons.inj above
    have dottedKind := isDotted_of_dottedParts? parts
    simp [kind] at dottedKind

theorem not_renaming_of_foreign_import {specifier : Site} (visited : specifier ∈ document.sites)
    (kind : specifier.node.kind = .importSpecifier)
    (foreign : ¬ IsLibrarySpecifier document specifier.ancestors) {part : Node}
    (below : part ∈ specifier.node.children) (new : String) :
    ¬ Renaming document imports part new := by
  intro given
  rcases given.at_site (Document.child_mem_sites visited below) with
    ⟨-, other, ancestors, above, library⟩ | ⟨-, -, outside⟩ |
      ⟨dotted, ancestors, object, above, parts, -⟩
  · obtain ⟨rfl, rfl⟩ := List.cons.inj above
    exact foreign library
  · simp [isSpecified, Site.parent?, kind] at outside
  · obtain ⟨rfl, rfl⟩ := List.cons.inj above
    have dottedKind := isDotted_of_dottedParts? parts
    simp [kind] at dottedKind

def leader? : Nat → Node → Option Node
  | 0, _ => none
  | fuel + 1, node =>
    match node.kind with
    | .identifier => some node
    | .memberExpression | .nestedIdentifier | .nestedTypeIdentifier =>
      node.children.head?.bind (leader? fuel)
    | _ => none

def isForeignSource (document : Document) (source : Node) : Bool :=
  !Library.isLibraryModule (document.stringValue source)

/-- The name that another module supplies to a site: the last part of a dotted name that one of its
bindings leads, or the name in a specifier of a statement on that module. -/
def foreignName? (document : Document) (site : Site) : Option Node :=
  let specified (kind : Kind) : Option Node := do
    let statement ← site.ancestors.find? fun node => node.kind = kind
    let source ← statement.child? .source
    if isForeignSource document source then site.node.child? .name else none
  match site.node.kind with
  | .importSpecifier => specified .importStatement
  | .exportSpecifier => specified .exportStatement
  | _ => do
    let (object, last) ← dottedParts? site.node
    let leader ← leader? object.size object
    let binding ← (Imports.ofDocument document).resolve? (document.text leader)
    if binding.isLibrary then none else some last

def foreignNames (document : Document) : List String :=
  (document.sites.filterMap (foreignName? document)).map document.text

/-- Other modules supply no names to the upgraded text but those that they supplied before. -/
def keepsForeignNames (path : String) (source : List Char) : Bool :=
  upgradeRelates path source fun before after =>
    (foreignNames after).isSublist (foreignNames before)

def twoFactories : List Char :=
  "import \x7b ArchbaseDataSource \x7d from '@archbase/react';\n".toList ++
    "import * as Local from './local';\n".toList ++
    "export \x7b ArchbaseDataSource as LocalSource \x7d from './local';\n".toList ++
    "type Legacy = Local.ArchbaseDataSource;\n".toList

-- the reexport and the type name what the other module does not have
theorem twoFactories_confused :
    ((run "src/App.tsx" twoFactories).code.bind
          (Document.ofComponentFile? "src/App.tsx")).map foreignNames =
        some ["ArchbaseRemoteDataSource", "ArchbaseRemoteDataSource"] ∧
      keepsForeignNames "src/App.tsx" twoFactories = false := by
  decide +kernel

end ComponentSurvey.DataSourceUpgrade
