import ComponentSurvey.Migration.DataSourceUpgrade
import ComponentSurvey.Proofs.Migration.Edit
import ComponentSurvey.Proofs.Syntax.Walk

/-!
# The edits of an upgrade

Every edit that an upgrade plans lies inside the text, so that the upgraded text is the text with
the edits that are kept in the place of their spans.
-/

namespace ComponentSurvey.DataSourceUpgrade

open Syntax Text

variable {document : Document} {imports : Imports} {site : Site} {edit : Edit}

/-! ## Imports of factories -/

def IsLibrarySpecifier (document : Document) (ancestors : List Node) : Prop :=
  ∃ statement source,
    ancestors.find? (fun node => node.kind = .importStatement) = some statement ∧
      statement.child? .source = some source ∧
      Library.isLibraryModule (document.stringValue source) = true

/-- What an import specifier says of the factory that it imports. -/
structure FactoryImport.SaidBy (document : Document) (specifier : Site) (entry : FactoryImport) :
    Prop where
  name : specifier.node.child? .name = some entry.name
  old : document.text entry.name = entry.old
  new : renamed? entry.old = some entry.new
  library : IsLibrarySpecifier document specifier.ancestors

theorem factoryImport?_saidBy {specifier : Site} {entry : FactoryImport}
    (found : factoryImport? document specifier = some entry) :
    entry.SaidBy document specifier := by
  simp only [factoryImport?, Option.bind_eq_bind, Option.bind_eq_some_iff] at found
  obtain ⟨statement, around, name, named, new, successor, source, sourced, decided⟩ := found
  split at decided
  · rename_i library
    cases decided
    exact ⟨named, rfl, successor, statement, source, around, sourced, library⟩
  · cases decided

theorem mem_factoryImports {entry : FactoryImport} (member : entry ∈ factoryImports document) :
    ∃ specifier ∈ document.sites,
      specifier.node.kind = .importSpecifier ∧ entry.SaidBy document specifier := by
  obtain ⟨specifier, listed, found⟩ := List.mem_filterMap.mp member
  obtain ⟨visited, kind⟩ := List.mem_filter.mp listed
  exact ⟨specifier, visited, of_decide_eq_true kind, factoryImport?_saidBy found⟩

theorem mem_renamedImports {entry : FactoryImport} :
    entry ∈ renamedImports document imports ↔
      entry ∈ factoryImports document ∧ isAlreadyImported imports entry.new = false := by
  rw [renamedImports, List.mem_filter, Bool.not_eq_true']

/-! ## New names -/

def isFollowed (kind : Kind) : Bool := kind = .identifier || kind = .typeIdentifier

def isSpecified (site : Site) : Bool :=
  site.parent?.any fun parent => parent.kind = .importSpecifier

/-- What an upgrade gives a new name: the imported name of a specifier, what refers to a renamed
import, and the last part of a name that a namespace of the library leads. -/
inductive Renaming (document : Document) (imports : Imports) : Node → String → Prop
  | imported {entry : FactoryImport} (renamed : entry ∈ renamedImports document imports) :
    Renaming document imports entry.name entry.new
  | referred {site : Site} {new : String} (visited : site ∈ document.sites)
    (followed : isFollowed site.node.kind = true)
    (listed : document.text site.node ∈ renamedLocals document imports)
    (outside : isSpecified site = false)
    (successor : renamed? (document.text site.node) = some new) :
    Renaming document imports site.node new
  | qualified {site : Site} {object last : Node} {new : String} (visited : site ∈ document.sites)
    (parts : dottedParts? site.node = some (object, last))
    (library : namesLibrary document imports object = true)
    (successor : renamed? (document.text last) = some new) :
    Renaming document imports last new

theorem dottedParts?_children {node object last : Node}
    (parts : dottedParts? node = some (object, last)) :
    object ∈ node.children ∧ last ∈ node.children := by
  simp only [dottedParts?, Option.bind_eq_bind, Option.pure_def] at parts
  split at parts
  all_goals
    simp only [Option.bind_eq_some_iff, Option.some.injEq, Prod.mk.injEq, reduceCtorEq] at parts
  all_goals
    obtain ⟨first, foundFirst, second, foundSecond, rfl, rfl⟩ := parts
    exact ⟨Node.mem_children_of_child? foundFirst, Node.mem_children_of_child? foundSecond⟩

theorem isDotted_of_dottedParts? {node object last : Node}
    (parts : dottedParts? node = some (object, last)) :
    node.kind = .memberExpression ∨ node.kind = .nestedTypeIdentifier := by
  rw [dottedParts?] at parts
  split at parts
  · rename_i kind
    exact .inl kind
  · rename_i kind
    exact .inr kind
  · cases parts

theorem not_isFollowed_of_dottedParts? {node object last : Node}
    (parts : dottedParts? node = some (object, last)) : isFollowed node.kind = false := by
  rcases isDotted_of_dottedParts? parts with kind | kind <;> simp [isFollowed, kind]

def renameEdit? (document : Document) (node : Node) : Option Edit :=
  (renamed? (document.text node)).map fun new =>
    replacement document node new s!"Renamed {document.text node} reference to {new}"

theorem referenceEdit?_followed (locals : List String)
    (followed : isFollowed site.node.kind = true) :
    referenceEdit? document imports locals site =
      if locals.contains (document.text site.node) && !isSpecified site then
        renameEdit? document site.node
      else none := by
  simp only [isFollowed, Bool.or_eq_true, decide_eq_true_eq] at followed
  rcases followed with kind | kind <;> simp only [referenceEdit?, kind] <;> rfl

theorem referenceEdit?_other (locals : List String)
    (other : isFollowed site.node.kind = false) :
    referenceEdit? document imports locals site =
      (dottedParts? site.node).bind fun parts =>
        if namesLibrary document imports parts.1 then renameEdit? document parts.2 else none := by
  simp only [isFollowed, Bool.or_eq_false_iff, decide_eq_false_iff_not] at other
  simp only [referenceEdit?]
  split
  · rename_i kind
    exact absurd kind other.1
  · rename_i kind
    exact absurd kind other.2
  · rfl

theorem renaming_of_mem_importEdits (member : edit ∈ importEdits document imports) :
    ∃ node new description, Renaming document imports node new ∧
      edit = replacement document node new description := by
  obtain ⟨entry, renamed, rfl⟩ := List.mem_map.mp member
  exact ⟨entry.name, entry.new, _, .imported renamed, rfl⟩

theorem renaming_of_mem_referenceEdits (member : edit ∈ referenceEdits document imports) :
    ∃ node new description, Renaming document imports node new ∧
      edit = replacement document node new description := by
  obtain ⟨site, visited, planned⟩ := List.mem_filterMap.mp member
  cases followed : isFollowed site.node.kind with
  | true =>
      rw [referenceEdit?_followed _ followed] at planned
      split at planned
      · rename_i allowed
        simp only [Bool.and_eq_true, List.contains_iff_mem, Bool.not_eq_true'] at allowed
        obtain ⟨new, successor, rfl⟩ := Option.map_eq_some_iff.mp planned
        exact ⟨_, new, _, .referred visited followed allowed.1 allowed.2 successor, rfl⟩
      · cases planned
  | false =>
      rw [referenceEdit?_other _ followed] at planned
      obtain ⟨⟨object, last⟩, parts, planned⟩ := Option.bind_eq_some_iff.mp planned
      split at planned
      · rename_i library
        obtain ⟨new, successor, rfl⟩ := Option.map_eq_some_iff.mp planned
        exact ⟨last, new, _, .qualified visited parts library successor, rfl⟩
      · cases planned

theorem planned_of_renaming {node : Node} {new : String}
    (given : Renaming document imports node new) :
    ∃ description, replacement document node new description ∈ edits document imports := by
  simp only [edits, List.mem_append]
  cases given with
  | @imported entry renamed =>
      exact ⟨_, .inl (.inl (.inl (List.mem_map.mpr ⟨entry, renamed, rfl⟩)))⟩
  | @referred site new visited followed listed outside successor =>
      refine ⟨s!"Renamed {document.text site.node} reference to {new}",
        .inl (.inl (.inr (List.mem_filterMap.mpr ⟨site, visited, ?_⟩)))⟩
      rw [referenceEdit?_followed _ followed, renameEdit?, successor, outside,
        List.contains_iff_mem.mpr listed]
      rfl
  | qualified visited parts library successor =>
      refine ⟨s!"Renamed {document.text node} reference to {new}",
        .inl (.inl (.inr (List.mem_filterMap.mpr ⟨_, visited, ?_⟩)))⟩
      rw [referenceEdit?_other _ (not_isFollowed_of_dottedParts? parts), parts,
        Option.bind_some, library, if_pos rfl, renameEdit?, successor]
      rfl

/-! ## Edits inside the text -/

theorem Renaming.liesIn {node : Node} {new : String}
    (given : Renaming document imports node new) :
    node.LiesIn 0 (byteLength document.source) := by
  cases given with
  | imported renamed =>
      obtain ⟨specifier, visited, -, said⟩ := mem_factoryImports (mem_renamedImports.mp renamed).1
      have below := Node.mem_children_of_child? said.name
      exact Document.liesIn_of_mem_sites (Document.child_mem_sites visited below)
  | referred visited followed listed outside successor =>
      exact Document.liesIn_of_mem_sites visited
  | qualified visited parts library successor =>
      exact Document.liesIn_of_mem_sites
        (Document.child_mem_sites visited (dottedParts?_children parts).2)

theorem fits_of_liesIn {node : Node} {length : Nat} (lies : node.LiesIn 0 length)
    {start : Nat} (starts : start ≤ node.start) (stops : edit.stop = node.stop)
    (same : edit.start = start) : edit.Fits length where
  start_le_stop := by
    have spans := node.start_le_stop lies.ordered
    omega
  stop_le := stops ▸ lies.le_stop

theorem renameEdits_fit
    (member : edit ∈ importEdits document imports ++ referenceEdits document imports) :
    edit.Fits (byteLength document.source) := by
  obtain ⟨node, new, description, given, rfl⟩ :=
    (List.mem_append.mp member).elim renaming_of_mem_importEdits renaming_of_mem_referenceEdits
  exact fits_of_liesIn given.liesIn (Nat.le_refl _) rfl rfl

theorem attributeEdits_fit (member : edit ∈ attributeEdits document) :
    edit.Fits (byteLength document.source) := by
  obtain ⟨attr, listed, planned⟩ := List.mem_filterMap.mp member
  obtain ⟨site, found, rfl⟩ := List.mem_map.mp listed
  have lies := Document.liesIn_of_mem_sites (List.mem_filter.mp found).1
  simp only [attributeEdit?, Option.bind_eq_bind, Option.bind_eq_some_iff] at planned
  obtain ⟨name, -, planned⟩ := planned
  split at planned
  · cases planned
    exact fits_of_liesIn lies (Nat.sub_le _ _) rfl rfl
  · cases planned

theorem byteLength_le_of_front {front text : List Char} (isFront : front <+: text) :
    byteLength front ≤ byteLength text := by
  obtain ⟨back, rfl⟩ := isFront
  rw [byteLength_append]
  exact Nat.le_add_right _ _

theorem line_in_front (isInside : Char → Bool) (text : List Char) :
    text.takeWhile isInside ++ (text.drop (text.takeWhile isInside).length).take 1 <+: text := by
  have whole := List.prefix_iff_eq_append.mp (List.takeWhile_prefix isInside (l := text))
  refine ⟨(text.drop (text.takeWhile isInside).length).drop 1, ?_⟩
  rw [List.append_assoc, List.take_append_drop, whole]

theorem lineSpan_le {source : List Char} {statement : Node}
    (lies : statement.LiesIn 0 (byteLength source)) :
    (lineSpan source statement).1 ≤ statement.start ∧
      statement.stop ≤ (lineSpan source statement).2 ∧
      (lineSpan source statement).2 ≤ byteLength source := by
  have within := lies.le_stop
  simp only [lineSpan]
  split
  · refine ⟨Nat.sub_le _ _, Nat.le_add_right _ _, ?_⟩
    have left := byteLength_dropBytes_le within
    have line := byteLength_le_of_front
      (line_in_front (fun c => decide (c ≠ '\n')) (dropBytes statement.stop source))
    omega
  · exact ⟨Nat.le_refl _, Nat.le_refl _, within⟩

theorem updatePlan_fits {call : Site} (visited : call ∈ document.sites)
    (planned : updatePlan document call = .edit edit) :
    edit.Fits (byteLength document.source) := by
  rw [updatePlan] at planned
  split at planned
  · rename_i statement above under
    have around : statement ∈ call.ancestors := under ▸ List.mem_cons_self
    have lies := Document.liesIn_of_mem_ancestors visited around
    split at planned
    · cases planned
    · split at planned
      · cases planned
        have spans := statement.start_le_stop lies.ordered
        obtain ⟨before, behind, within⟩ := lineSpan_le lies
        exact ⟨before.trans (spans.trans behind), within⟩
      · cases planned
        exact fits_of_liesIn lies (Nat.le_refl _) rfl rfl
  · cases planned

theorem updatePlan_of_callPlan? {call : Site}
    (settled : callPlan? document call = some (.edit edit)) :
    updatePlan document call = .edit edit := by
  simp only [callPlan?, Option.bind_eq_bind, Option.bind_eq_some_iff] at settled
  obtain ⟨callee, -, settled⟩ := settled
  split at settled
  · cases settled
  · simp only [Option.bind_eq_some_iff] at settled
    obtain ⟨object, -, property, -, settled⟩ := settled
    split at settled
    · split at settled
      · cases settled
      · exact Option.some.inj settled
    · split at settled <;> cases settled

theorem callEdits_fit (member : edit ∈ (callPlans document).filterMap CallPlan.edit?) :
    edit.Fits (byteLength document.source) := by
  obtain ⟨plan, listed, planned⟩ := List.mem_filterMap.mp member
  obtain ⟨call, found, settled⟩ := List.mem_filterMap.mp listed
  have visited := (List.mem_filter.mp found).1
  cases plan with
  | warning message => cases planned
  | edit other =>
      cases planned
      exact updatePlan_fits visited (updatePlan_of_callPlan? settled)

theorem edits_fit (document : Document) (imports : Imports) (edit : Edit)
    (member : edit ∈ edits document imports) : edit.Fits (byteLength document.source) := by
  rw [edits, List.mem_append, List.mem_append] at member
  rcases member with (renames | attributes) | calls
  · exact renameEdits_fit renames
  · exact attributeEdits_fit attributes
  · exact callEdits_fit calls

/-- The upgraded text is the text with every edit that is kept in the place of its span. -/
theorem code_ofDocument (document : Document) :
    (ofDocument document).code =
      some (Edit.between document.source (byteLength document.source) 0
        (Edit.kept (edits document (Imports.ofDocument document)))) :=
  congrArg some (Edit.applyEdits_eq_between (edits_fit document _))

end ComponentSurvey.DataSourceUpgrade
