import ComponentSurvey.Proofs.Migration.Overlaps

/-!
# Calls that force an update

A call goes with its statement or is reported as one whose value is used.  Which of the two is
decided by its parent alone; that the text around a reported call may go for a reason of its own is
not looked at.
-/

namespace ComponentSurvey.DataSourceUpgrade

open Syntax Text

variable {document : Document} {imports : Imports} {call : Site} {edit : Edit}

def isUpdateCall (document : Document) (call : Node) : Bool :=
  (call.child? .callee).any fun callee =>
    callee.kind = .memberExpression &&
      (callee.child? .object).any (fun object => object.kind ≠ .thisKeyword) &&
      (callee.child? .property).any fun property => document.text property = updateMethod

def updateCalls (document : Document) : List Site :=
  (document.sitesOfKind .callExpression).filter fun call => isUpdateCall document call.node

def isStatement (call : Site) : Bool :=
  call.parent?.any fun parent => parent.kind = .expressionStatement

def isReported (document : Document) (call : Site) : Bool :=
  callPlan? document call = some (.warning (usedUpdateWarning (document.line call.node)))

def isDeleted (document : Document) (imports : Imports) (call : Site) : Bool :=
  (Edit.kept (edits document imports)).any fun edit =>
    edit.change.kind = .remove && edit.start ≤ call.node.start && call.node.stop ≤ edit.stop

theorem mem_updateCalls (member : call ∈ updateCalls document) :
    call ∈ document.sites ∧ call.node.kind = .callExpression ∧
      ∃ callee object property, IsUpdateCall document call.node callee object property := by
  obtain ⟨listed, updates⟩ := List.mem_filter.mp member
  obtain ⟨visited, isCall⟩ := List.mem_filter.mp listed
  obtain ⟨callee, called, rest⟩ := (Option.any_eq_true _ _).mp updates
  simp only [Bool.and_eq_true, decide_eq_true_eq] at rest
  obtain ⟨⟨isMember, ofObject⟩, ofProperty⟩ := rest
  obtain ⟨object, found, foreign⟩ := (Option.any_eq_true _ _).mp ofObject
  obtain ⟨property, foundProperty, reads⟩ := (Option.any_eq_true _ _).mp ofProperty
  exact ⟨visited, of_decide_eq_true isCall, callee, object, property, called, isMember, found,
    foundProperty, of_decide_eq_true reads, of_decide_eq_true foreign⟩

/-- A call is reported exactly if it is no statement of its own; otherwise an edit is planned. -/
theorem callPlan?_updateCall (member : call ∈ updateCalls document) :
    (isStatement call = false ∧ isReported document call = true) ∨
      (isStatement call = true ∧ ∃ edit, callPlan? document call = some (.edit edit)) := by
  obtain ⟨visited, isCall, callee, object, property, updates⟩ := mem_updateCalls member
  have planned := callPlan?_of_isUpdateCall updates
  simp only [isReported, planned, isStatement, Site.parent?, Option.some.injEq, decide_eq_true_eq]
  rw [updatePlan]
  split
  · rename_i statement above under
    rw [under]
    split
    · rename_i notStatement
      exact .inl ⟨by simpa using notStatement, rfl⟩
    · rename_i isStatement
      rw [not_not] at isStatement
      refine .inr ⟨by simpa using isStatement, ?_⟩
      split <;> exact ⟨_, rfl⟩
  · rename_i rootless
    exact .inl ⟨by simp [rootless], rfl⟩

theorem isRemove_of_mem_updateRemovals (member : edit ∈ updateRemovals document) :
    edit.change.kind = .remove := by
  rcases List.mem_append.mp member with inAttributes | inCalls
  · obtain ⟨attr, found, planned⟩ := List.mem_filterMap.mp inAttributes
    simp only [attributeEdit?, Option.bind_eq_bind, Option.bind_eq_some_iff] at planned
    obtain ⟨name, -, planned⟩ := planned
    split at planned
    · cases planned
      rfl
    · cases planned
  · obtain ⟨plan, settled, planned⟩ := List.mem_filterMap.mp inCalls
    obtain ⟨call, found, settled⟩ := List.mem_filterMap.mp settled
    cases plan with
    | warning message => cases planned
    | edit other =>
        cases planned
        have plan := updatePlan_of_callPlan? settled
        rw [updatePlan] at plan
        split at plan
        · split at plan
          · cases plan
          · split at plan <;> cases plan <;> rfl
        · cases plan

theorem mem_edits_of_mem_updateRemovals (member : edit ∈ updateRemovals document) :
    edit ∈ edits document imports := by
  rw [edits, List.append_assoc]
  exact List.mem_append_right _ member

theorem isDeleted_of_planned (grammatical : Grammatical document.source document.root)
    (tidy : IsTidy document) (member : call ∈ updateCalls document)
    (planned : callPlan? document call = some (.edit edit)) :
    isDeleted document imports call = true := by
  obtain ⟨visited, isCall, callee, object, property, updates⟩ := mem_updateCalls member
  obtain ⟨site, edited, above⟩ := editedAt_of_callPlan? imports visited isCall planned
  have names := namesUpdate_of_isUpdateCall visited updates above
  have lies := Document.liesIn_ancestor visited (above ▸ List.mem_cons_self)
  have starts := (edited.frames grammatical).start_le.trans lies.start_le
  have stops := lies.le_stop.trans (edited.frames grammatical).le_stop
  have covers := call.node.start_le_stop lies.ordered
  have listed : edit ∈ edits document imports :=
    mem_edits_of_mem_updateRemovals (mem_updateRemovals_of_callPlan? visited isCall planned)
  obtain ⟨holder, kept, precedes, overlaps⟩ :=
    Edit.covered_kept listed (edited.edit_start_lt_stop grammatical)
  have holderListed := Edit.mem_of_mem_kept kept
  obtain ⟨outer, held⟩ := exists_editedAt grammatical holderListed
  have inside := inside_holder grammatical tidy listed holderListed precedes overlaps
  have removes := isRemove_of_mem_updateRemovals
    (mem_updateRemovals_of_inside grammatical edited names held inside)
  refine List.any_eq_true.mpr ⟨holder, kept, ?_⟩
  simp only [Bool.and_eq_true, decide_eq_true_eq]
  exact ⟨⟨removes, inside.1.trans starts⟩, stops.trans inside.2⟩

/--
A call that forces an update is reported exactly if it is no statement of its own, and one that is
not reported is deleted.
-/
theorem updateCall_reported_or_deleted {path : String} {source : List Char}
    (parsed : Document.ofComponentFile? path source = some document) (tidy : IsTidy document)
    (imports : Imports) (call : Site) (member : call ∈ updateCalls document) :
    (isReported document call = true ↔ isStatement call = false) ∧
      (isReported document call = true ∨ isDeleted document imports call = true) := by
  have grammatical := Document.grammatical_of_ofComponentFile? parsed
  rcases callPlan?_updateCall member with ⟨other, reported⟩ | ⟨statement, edit, planned⟩
  · exact ⟨by simp [other, reported], .inl reported⟩
  · refine ⟨by simp [statement, isReported, planned], .inr ?_⟩
    exact isDeleted_of_planned grammatical tidy member planned

/-- Whether every call that forces an update is either reported or deleted, if the text parses. -/
def handlesOnce (path : String) (source : List Char) : Bool :=
  (Document.ofComponentFile? path source).all fun document =>
    (updateCalls document).all fun call =>
      isReported document call != isDeleted document (Imports.ofDocument document) call

/-- A call that gives an attribute that goes its value. -/
def forcedTag : List Char :=
  "const x = <ArchbaseEdit forceUpdate=\x7bds.forceUpdate()\x7d />;\n".toList

-- the call is gone, and the warning says that it was not removed
theorem forcedTag_reported_and_deleted :
    (run "src/App.tsx" forcedTag).code = some "const x = <ArchbaseEdit />;\n".toList ∧
      (run "src/App.tsx" forcedTag).warnings = [usedUpdateWarning 1] ∧
      handlesOnce "src/App.tsx" forcedTag = false := by
  decide +kernel

end ComponentSurvey.DataSourceUpgrade
