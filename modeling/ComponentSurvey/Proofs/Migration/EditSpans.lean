import ComponentSurvey.Proofs.Migration.References
import ComponentSurvey.Proofs.Syntax.Separation

/-!
# The spans of planned edits

Every edit that an upgrade plans is about one node: a name, an attribute or a statement.  It covers
that node and at most white space around it.
-/

namespace ComponentSurvey.DataSourceUpgrade

open Syntax Text

variable {document : Document} {imports : Imports} {site call : Site} {edit : Edit}

/-! ## Calls that force an update -/

/-- A call of the method that forces an update, on anything but `this`. -/
structure IsUpdateCall (document : Document) (call callee object property : Node) : Prop where
  called : call.child? .callee = some callee
  isMember : callee.kind = .memberExpression
  ofObject : callee.child? .object = some object
  ofProperty : callee.child? .property = some property
  reads : document.text property = updateMethod
  foreign : object.kind ≠ .thisKeyword

theorem callPlan?_of_isUpdateCall {callee object property : Node}
    (updates : IsUpdateCall document call.node callee object property) :
    callPlan? document call = some (updatePlan document call) := by
  simp [callPlan?, updates.called, updates.isMember, updates.ofObject, updates.ofProperty,
    updates.reads, updates.foreign]

theorem exists_isUpdateCall (planned : callPlan? document call = some (.edit edit)) :
    ∃ callee object property, IsUpdateCall document call.node callee object property := by
  simp only [callPlan?, Option.bind_eq_bind, Option.bind_eq_some_iff] at planned
  obtain ⟨callee, called, planned⟩ := planned
  split at planned
  · cases planned
  · rename_i isMember
    simp only [Option.bind_eq_some_iff] at planned
    obtain ⟨object, ofObject, property, ofProperty, planned⟩ := planned
    split at planned
    · rename_i reads
      split at planned
      · cases planned
      · rename_i foreign
        exact ⟨callee, object, property, called, not_not.mp isMember, ofObject, ofProperty, reads,
          foreign⟩
    · split at planned <;> cases planned

/-! ## Nodes that are edited -/

def updateRemovals (document : Document) : List Edit :=
  attributeEdits document ++ (callPlans document).filterMap CallPlan.edit?

def editedSpan (document : Document) (site : Site) : Nat × Nat :=
  match site.node.kind with
  | .jsxAttribute => (blankStart document.source site.node.start, site.node.stop)
  | .expressionStatement =>
    if site.parent?.any isListed then lineSpan document.source site.node
    else (site.node.start, site.node.stop)
  | _ => (site.node.start, site.node.stop)

theorem editedSpan_of_isAttribute (isAttribute : site.node.kind = .jsxAttribute) :
    editedSpan document site =
      (blankStart document.source site.node.start, site.node.stop) := by
  simp only [editedSpan, isAttribute]

theorem editedSpan_of_isStatement (isStatement : site.node.kind = .expressionStatement) :
    editedSpan document site =
      if site.parent?.any isListed then lineSpan document.source site.node
      else (site.node.start, site.node.stop) := by
  simp only [editedSpan, isStatement]

theorem editedSpan_stop (other : site.node.kind ≠ .expressionStatement) :
    (editedSpan document site).2 = site.node.stop := by
  unfold editedSpan
  split
  · rfl
  · rename_i isStatement
    exact absurd isStatement other
  · rfl

theorem editedSpan_of_isAtom (isAtom : site.node.kind.isAtom = true) :
    editedSpan document site = (site.node.start, site.node.stop) := by
  unfold editedSpan
  split
  · rename_i kind
    simp [kind, Kind.isAtom] at isAtom
  · rename_i kind
    simp [kind, Kind.isAtom] at isAtom
  · rfl

def NamesUpdate (document : Document) (site : Site) : Prop :=
  ∃ name ∈ document.sites, site.node ∈ name.ancestors ∧ document.text name.node = updateMethod

inductive Purpose (document : Document) (imports : Imports) (site : Site) (edit : Edit) : Prop
  | rename {new : String} (given : Renaming document imports site.node new)
    (isAtom : site.node.kind.isAtom = true) (replacement : edit.replacement = new.toList)
  | removal (isRemoved : site.node.kind = .jsxAttribute ∨ site.node.kind = .expressionStatement)
    (names : NamesUpdate document site) (listed : edit ∈ updateRemovals document)

structure EditedAt (document : Document) (imports : Imports) (edit : Edit) (site : Site) :
    Prop where
  visited : site ∈ document.sites
  span : editedSpan document site = (edit.start, edit.stop)
  position : edit.change.position = some (document.position site.node)
  before : edit.change.before = some (document.text site.node)
  purpose : Purpose document imports site edit

theorem isNamed_of_dottedParts? {node object last : Node}
    (parts : dottedParts? node = some (object, last)) :
    ∃ role, node.kind.nameRole? = some role ∧ last.role = some role := by
  simp only [dottedParts?, Option.bind_eq_bind, Option.pure_def] at parts
  split at parts
  all_goals
    rename_i kind
    simp only [Option.bind_eq_some_iff, Option.some.injEq, Prod.mk.injEq, reduceCtorEq] at parts
  all_goals
    obtain ⟨first, -, second, found, rfl, rfl⟩ := parts
    exact ⟨_, by rw [kind]; rfl, of_decide_eq_true (List.find?_some found :)⟩

theorem exists_site_of_renaming (grammatical : Grammatical document.source document.root)
    {node : Node} {new : String} (given : Renaming document imports node new) :
    ∃ site ∈ document.sites, site.node = node ∧ node.kind.isAtom = true := by
  cases given with
  | imported renamed =>
      obtain ⟨specifier, visited, kind, said⟩ :=
        mem_factoryImports (mem_renamedImports.mp renamed).1
      have below := Node.mem_children_of_child? said.name
      have production := (Document.grammatical_of_mem_sites grammatical visited).production
      refine ⟨_, Document.child_mem_sites visited below, rfl, ?_⟩
      exact production.named .name (by rw [kind]; rfl) _ below
        (of_decide_eq_true (List.find?_some said.name :))
  | referred visited followed =>
      refine ⟨_, visited, rfl, ?_⟩
      simp only [isFollowed, Bool.or_eq_true, decide_eq_true_eq] at followed
      rcases followed with kind | kind <;> rw [kind] <;> rfl
  | @qualified dotted object last new visited parts library successor =>
      have below := (dottedParts?_children parts).2
      have production := (Document.grammatical_of_mem_sites grammatical visited).production
      refine ⟨_, Document.child_mem_sites visited below, rfl, ?_⟩
      obtain ⟨role, named, plays⟩ := isNamed_of_dottedParts? parts
      exact production.named role named _ below plays

theorem namesUpdate_of_isUpdateCall {callee object property : Node}
    (visited : call ∈ document.sites)
    (updates : IsUpdateCall document call.node callee object property)
    (above : call.ancestors = site.node :: site.ancestors) : NamesUpdate document site := by
  have calleeVisited :=
    Document.child_mem_sites visited (Node.mem_children_of_child? updates.called)
  refine ⟨_, Document.child_mem_sites calleeVisited
    (Node.mem_children_of_child? updates.ofProperty), ?_, updates.reads⟩
  simp [above]

theorem editedAt_of_renaming (grammatical : Grammatical document.source document.root)
    {node : Node} {new description : String} (given : Renaming document imports node new) :
    ∃ site, EditedAt document imports (replacement document node new description) site := by
  obtain ⟨site, visited, rfl, isAtom⟩ := exists_site_of_renaming grammatical given
  exact ⟨site, visited, editedSpan_of_isAtom isAtom, rfl, rfl, .rename given isAtom rfl⟩

theorem editedAt_of_mem_attributeEdits (member : edit ∈ attributeEdits document) :
    ∃ site, EditedAt document imports edit site := by
  have listed : edit ∈ updateRemovals document := List.mem_append_left _ member
  obtain ⟨attr, found, planned⟩ := List.mem_filterMap.mp member
  obtain ⟨site, ofKind, rfl⟩ := List.mem_map.mp found
  obtain ⟨visited, kind⟩ := List.mem_filter.mp ofKind
  have isAttribute := of_decide_eq_true kind
  simp only [attributeEdit?, Option.bind_eq_bind, Option.bind_eq_some_iff] at planned
  obtain ⟨name, first, planned⟩ := planned
  split at planned
  · rename_i reads
    cases planned
    have below := (List.mem_filter.mp (List.mem_of_mem_head? first)).1
    have named : NamesUpdate document site :=
      ⟨_, Document.child_mem_sites visited below, List.mem_cons_self, reads⟩
    exact ⟨site, visited, editedSpan_of_isAttribute isAttribute, rfl, rfl,
      .removal (.inl isAttribute) named listed⟩
  · cases planned

theorem mem_updateRemovals_of_callPlan? (visited : call ∈ document.sites)
    (isCall : call.node.kind = .callExpression)
    (settled : callPlan? document call = some (.edit edit)) : edit ∈ updateRemovals document := by
  have listed : call ∈ document.sitesOfKind .callExpression :=
    List.mem_filter.mpr ⟨visited, decide_eq_true isCall⟩
  exact List.mem_append_right _ <| List.mem_filterMap.mpr
    ⟨.edit edit, List.mem_filterMap.mpr ⟨call, listed, settled⟩, rfl⟩

/-- The edit on account of a call is about the statement that the call makes up. -/
theorem editedAt_of_callPlan? (imports : Imports) (visited : call ∈ document.sites)
    (isCall : call.node.kind = .callExpression)
    (settled : callPlan? document call = some (.edit edit)) :
    ∃ site, EditedAt document imports edit site ∧
      call.ancestors = site.node :: site.ancestors := by
  have listed := mem_updateRemovals_of_callPlan? visited isCall settled
  obtain ⟨callee, object, property, updates⟩ := exists_isUpdateCall settled
  have plan := updatePlan_of_callPlan? settled
  rw [updatePlan] at plan
  obtain ⟨-, rootless⟩ | ⟨site, visitedSite, above, below⟩ := Document.parent_mem_sites visited
  · rw [rootless] at plan
    cases plan
  · have named := namesUpdate_of_isUpdateCall visited updates above
    rw [above] at plan
    dsimp only at plan
    split at plan
    · cases plan
    · rename_i isStatement
      rw [not_not] at isStatement
      have purpose : Purpose document imports site edit :=
        .removal (.inr isStatement) named listed
      have span : editedSpan document site = _ := editedSpan_of_isStatement isStatement
      refine ⟨site, ?_, above⟩
      split at plan
      · rename_i isIn
        cases plan
        exact ⟨visitedSite, span.trans (if_pos isIn), rfl, rfl, purpose⟩
      · rename_i notIn
        cases plan
        exact ⟨visitedSite, span.trans (if_neg notIn), rfl, rfl, purpose⟩

theorem exists_editedAt (grammatical : Grammatical document.source document.root)
    (member : edit ∈ edits document imports) : ∃ site, EditedAt document imports edit site := by
  rw [edits, List.mem_append, List.mem_append, List.mem_append] at member
  rcases member with ((inImports | inReferences) | inAttributes) | inCalls
  · obtain ⟨node, new, description, given, rfl⟩ := renaming_of_mem_importEdits inImports
    exact editedAt_of_renaming grammatical given
  · obtain ⟨node, new, description, given, rfl⟩ := renaming_of_mem_referenceEdits inReferences
    exact editedAt_of_renaming grammatical given
  · exact editedAt_of_mem_attributeEdits inAttributes
  · obtain ⟨plan, settled, planned⟩ := List.mem_filterMap.mp inCalls
    obtain ⟨call, found, settled⟩ := List.mem_filterMap.mp settled
    obtain ⟨visited, isCall⟩ := List.mem_filter.mp found
    cases plan with
    | warning message => cases planned
    | edit other =>
        cases planned
        obtain ⟨site, edited, -⟩ :=
          editedAt_of_callPlan? imports visited (of_decide_eq_true isCall) settled
        exact ⟨site, edited⟩

theorem EditedAt.boundaries (grammatical : Grammatical document.source document.root)
    (edited : EditedAt document imports edit site) :
    IsBoundary document.source site.node.start ∧ IsBoundary document.source site.node.stop :=
  have production := (Document.grammatical_of_mem_sites grammatical edited.visited).production
  ⟨production.starts, production.stops⟩

theorem EditedAt.start_lt_stop (edited : EditedAt document imports edit site) :
    site.node.start < site.node.stop := by
  cases edited.purpose with
  | rename given => exact given.start_lt_stop
  | removal isRemoved names listed =>
      obtain ⟨name, visited, above, reads⟩ := names
      have lies := Document.liesIn_ancestor visited above
      have covers : name.node.start < name.node.stop :=
        start_lt_stop_of_text (by rw [reads]; decide)
      exact lies.start_le.trans_lt (covers.trans_le lies.le_stop)

/-! ## White space around a node -/

/-- A span that covers a stretch of text and only white space around it. -/
structure Frames (source : List Char) (start stop : Nat) (span : Nat × Nat) : Prop where
  starts : IsBoundary source span.1
  stops : IsBoundary source span.2
  start_le : span.1 ≤ start
  le_stop : stop ≤ span.2
  before : ∀ place c, span.1 ≤ place → place < start → CharAt source place c → isBlank c = true
  behind : ∀ place c, stop ≤ place → place < span.2 → CharAt source place c → isBlank c = true

variable {source : List Char} {start stop place : Nat} {span : Nat × Nat} {c : Char}

namespace Frames

theorem self (starts : IsBoundary source start) (stops : IsBoundary source stop) :
    Frames source start stop (start, stop) where
  starts := starts
  stops := stops
  start_le := Nat.le_refl _
  le_stop := Nat.le_refl _
  before _ _ := by omega
  behind _ _ := by omega

/-- What is no white space and stands in front of the stretch stands in front of the span. -/
theorem next_le_start (frames : Frames source start stop span) (there : CharAt source place c)
    (solid : isBlank c = false) (inFront : place < start) : place + c.utf8Size ≤ span.1 := by
  refine there.next_le frames.starts (Nat.lt_of_not_le fun inside => ?_)
  have blank := frames.before place c inside inFront there
  rw [solid] at blank
  cases blank

theorem stop_le (frames : Frames source start stop span) (there : CharAt source place c)
    (solid : isBlank c = false) (behind : stop ≤ place) : span.2 ≤ place := by
  refine Nat.le_of_not_lt fun inside => ?_
  have blank := frames.behind place c behind inside there
  rw [solid] at blank
  cases blank

end Frames

theorem isBlank_of_isAsciiBlank (blank : isAsciiBlank c = true) : isBlank c = true := by
  simp [isBlank, isLineBlank, blank]

theorem frames_blankStart (starts : IsBoundary source start) (stops : IsBoundary source stop) :
    Frames source start stop (blankStart source start, stop) where
  starts := isBoundary_before starts _
  stops := stops
  start_le := Nat.sub_le _ _
  le_stop := Nat.le_refl _
  before _ _ inside inFront there :=
    isBlank_of_isAsciiBlank (List.mem_takeWhile_imp (there.mem_before starts inside inFront))
  behind _ _ := by omega

/-! ## Whole lines -/

/-- A span in front of which only spaces and tabs were taken, and behind which a line was taken up
to its end or nothing at all. -/
structure TakesLine (source : List Char) (start stop : Nat) (span : Nat × Nat) : Prop where
  indented : ∀ place c, span.1 ≤ place → place < start → CharAt source place c →
    c = ' ' ∨ c = '\t'
  ends : span.2 = stop ∨ span.2 = byteLength source ∨
    ∃ newline, stop ≤ newline ∧ newline + 1 = span.2 ∧ CharAt source newline '\n'

theorem TakesLine.self (source : List Char) (start stop : Nat) :
    TakesLine source start stop (start, stop) where
  indented _ _ := by omega
  ends := .inl rfl

/-- The rest of a line and its end are all that is left, or they end with the newline. -/
theorem line_ends (text : List Char) :
    let line := text.takeWhile fun c => c ≠ '\n'
    let ending := (text.drop line.length).take 1
    (line ++ ending = text ∧ ending = []) ∨ ending = ['\n'] := by
  induction text with
  | nil => exact .inl ⟨rfl, rfl⟩
  | cons c rest ih =>
      by_cases ended : c = '\n'
      · exact .inr (by simp [ended])
      · simpa [ended] using ih

section WholeLine

variable {line ending : List Char} (stops : IsBoundary source stop)
  (ahead : line ++ ending <+: dropBytes stop source)
  (ended : (line ++ ending = dropBytes stop source ∧ ending = []) ∨ ending = ['\n'])
include stops ahead ended

theorem isBlank_to_line_end (blank : line.all isBlank = true) (outside : stop ≤ place)
    (inside : place < stop + byteLength (line ++ ending)) (there : CharAt source place c) :
    isBlank c = true := by
  rcases List.mem_append.mp (there.mem_behind stops ahead outside inside) with inLine | atEnd
  · exact List.all_eq_true.mp blank c inLine
  · rcases ended with ⟨-, none⟩ | newline
    · rw [none] at atEnd
      cases atEnd
    · obtain rfl : c = '\n' := by simpa [newline] using atEnd
      rfl

theorem text_or_newline_ends :
    stop + byteLength (line ++ ending) = byteLength source ∨
      ∃ newline, stop ≤ newline ∧ newline + 1 = stop + byteLength (line ++ ending) ∧
        CharAt source newline '\n' := by
  obtain ⟨front, back, rfl, rfl⟩ := stops
  rw [dropBytes_byteLength] at ahead ended
  rcases ended with ⟨all, -⟩ | rfl
  · exact .inl (by rw [all, byteLength_append])
  · obtain ⟨rest, rfl⟩ := ahead
    refine .inr ⟨byteLength (front ++ line), ?_, ?_, front ++ line, rest, by simp, rfl⟩
    · simp
    · have single : '\n'.utf8Size = 1 := rfl
      simp [Nat.add_assoc, single]

end WholeLine

variable {statement : Node}

theorem lineSpan_eq (source : List Char) (statement : Node) :
    lineSpan source statement = (statement.start, statement.stop) ∨
      ∃ before line ending,
        before = (takeBytes statement.start source).reverse.takeWhile (fun c => c ≠ '\n') ∧
        line = (dropBytes statement.stop source).takeWhile (fun c => c ≠ '\n') ∧
        ending = ((dropBytes statement.stop source).drop line.length).take 1 ∧
        before.all (fun c => c = ' ' || c = '\t') = true ∧ line.all isBlank = true ∧
        lineSpan source statement =
          (statement.start - byteLength before, statement.stop + byteLength (line ++ ending)) := by
  simp only [lineSpan]
  split
  · rename_i isAlone
    obtain ⟨indented, blank⟩ := Bool.and_eq_true_iff.mp isAlone
    exact .inr ⟨_, _, _, rfl, rfl, rfl, indented, blank, rfl⟩
  · exact .inl rfl

theorem lineSpan_spec (starts : IsBoundary source statement.start)
    (stops : IsBoundary source statement.stop) :
    Frames source statement.start statement.stop (lineSpan source statement) ∧
      TakesLine source statement.start statement.stop (lineSpan source statement) := by
  rcases lineSpan_eq source statement with same | ⟨before, line, ending, hasBefore, hasLine,
    hasEnding, indented, blank, same⟩
  · rw [same]
    exact ⟨.self starts stops, .self source _ _⟩
  · have ahead : line ++ ending <+: dropBytes statement.stop source := by
      rw [hasEnding, hasLine]
      exact line_in_front _ _
    have ended : (line ++ ending = dropBytes statement.stop source ∧ ending = []) ∨
        ending = ['\n'] := by
      rw [hasEnding, hasLine]
      exact line_ends _
    have inFront : ∀ place c, statement.start - byteLength before ≤ place →
        place < statement.start → CharAt source place c → c = ' ' ∨ c = '\t' := by
      intro place c inside outside there
      have member := there.mem_before starts (hasBefore ▸ inside) outside
      simpa using List.all_eq_true.mp indented c (hasBefore ▸ member)
    rw [same]
    constructor
    · exact
        { starts := hasBefore ▸ isBoundary_before starts _
          stops := isBoundary_behind stops ahead
          start_le := Nat.sub_le _ _
          le_stop := Nat.le_add_right _ _
          before := fun place c inside outside there => by
            rcases inFront place c inside outside there with rfl | rfl <;> rfl
          behind := fun place c => isBlank_to_line_end stops ahead ended blank }
    · exact ⟨inFront, .inr (text_or_newline_ends stops ahead ended)⟩

theorem frames_editedSpan (starts : IsBoundary document.source site.node.start)
    (stops : IsBoundary document.source site.node.stop) :
    Frames document.source site.node.start site.node.stop (editedSpan document site) := by
  unfold editedSpan
  split
  · exact frames_blankStart starts stops
  · split
    · exact (lineSpan_spec starts stops).1
    · exact .self starts stops
  · exact .self starts stops

/-- The node that an edit is about lies inside its span. -/
theorem EditedAt.frames (grammatical : Grammatical document.source document.root)
    (edited : EditedAt document imports edit site) :
    Frames document.source site.node.start site.node.stop (edit.start, edit.stop) :=
  edited.span ▸ frames_editedSpan (edited.boundaries grammatical).1
    (edited.boundaries grammatical).2

theorem EditedAt.edit_start_lt_stop (grammatical : Grammatical document.source document.root)
    (edited : EditedAt document imports edit site) : edit.start < edit.stop :=
  have frames := edited.frames grammatical
  frames.start_le.trans_lt (edited.start_lt_stop.trans_le frames.le_stop)

theorem takesLine_editedSpan (starts : IsBoundary document.source site.node.start)
    (stops : IsBoundary document.source site.node.stop)
    (isStatement : site.node.kind = .expressionStatement) :
    TakesLine document.source site.node.start site.node.stop (editedSpan document site) := by
  rw [editedSpan_of_isStatement isStatement]
  split
  · exact (lineSpan_spec starts stops).2
  · exact .self _ _ _

end ComponentSurvey.DataSourceUpgrade
