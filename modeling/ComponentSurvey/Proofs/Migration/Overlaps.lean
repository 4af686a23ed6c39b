import ComponentSurvey.Proofs.Migration.EditSpans
import ComponentSurvey.Proofs.Migration.Substitution

/-!
# Planned edits do not cross

The spans of two planned edits lie apart, or one lies inside the other, although those of
attributes and statements take white space along.  So an edit that is dropped repeats a kept one or
goes with a removal around it.
-/

namespace ComponentSurvey

open Syntax Text

namespace Edit

def span (edit : Edit) : Nat × Nat := (edit.start, edit.stop)

def LiesApart (first second : Edit) : Prop :=
  first.stop ≤ second.start ∨ second.stop ≤ first.start

def IsInside (inner outer : Edit) : Prop :=
  outer.start ≤ inner.start ∧ inner.stop ≤ outer.stop

end Edit

namespace DataSourceUpgrade

variable {document : Document} {imports : Imports} {site first second inner outer : Site}
  {edit holder : Edit}

/-! ## Nodes that begin and end on text -/

/-- A name, an attribute or a statement that begins and ends on no white space. -/
structure StandsOut (document : Document) (site : Site) : Prop where
  visited : site ∈ document.sites
  isEdited : site.node.kind.isAtom = true ∨ site.node.kind = .jsxAttribute ∨
    site.node.kind = .expressionStatement
  starts : IsBoundary document.source site.node.start
  stops : IsBoundary document.source site.node.stop
  trimmed : isTrimmed (document.chars site.node) = true

namespace StandsOut

theorem ordered (stands : StandsOut document site) : site.node.start ≤ site.node.stop :=
  site.node.start_le_stop (Document.liesIn_of_mem_sites stands.visited).ordered

theorem frames (stands : StandsOut document site) :
    Frames document.source site.node.start site.node.stop (editedSpan document site) :=
  frames_editedSpan stands.starts stands.stops

theorem begins (stands : StandsOut document site) :
    ∃ c, isBlank c = false ∧ site.node.start < site.node.stop ∧
      CharAt document.source site.node.start c :=
  exists_first stands.starts stands.stops stands.ordered stands.trimmed

theorem ends (stands : StandsOut document site) :
    ∃ place c, isBlank c = false ∧ site.node.start ≤ place ∧
      place + c.utf8Size = site.node.stop ∧ CharAt document.source place c :=
  exists_last stands.starts stands.stops stands.ordered stands.trimmed

theorem covers (stands : StandsOut document site) : site.node.start < site.node.stop :=
  let ⟨_, _, covers, _⟩ := stands.begins
  covers

theorem not_isMinor (stands : StandsOut document site) : site.node.kind.isMinor = false := by
  rcases stands.isEdited with isAtom | kind | kind
  · cases kind : site.node.kind <;> simp_all [Kind.isAtom, Kind.isMinor]
  · rw [kind]
    rfl
  · rw [kind]
    rfl

/-! ## One node inside the other -/

section Grammatical

variable (grammatical : Grammatical document.source document.root)
include grammatical

theorem not_isAtom_of_above (stands : StandsOut document inner)
    (above : outer.node ∈ inner.ancestors) : outer.node.kind.isAtom = false := by
  by_contra isAtom
  have isMinor := Document.isMinor_of_above grammatical stands.visited above (by simp_all)
  rw [stands.not_isMinor] at isMinor
  cases isMinor

theorem inside_of_above (stands : StandsOut document inner) (around : StandsOut document outer)
    (above : outer.node ∈ inner.ancestors) :
    (editedSpan document outer).1 ≤ (editedSpan document inner).1 ∧
      (editedSpan document inner).2 ≤ (editedSpan document outer).2 := by
  have lies := Document.liesIn_ancestor stands.visited above
  have starts := lies.start_le
  have stops := lies.le_stop
  have outerStart := around.frames.start_le
  have outerStop := around.frames.le_stop
  rcases stands.isEdited with isAtom | isAttribute | isStatement
  · rw [editedSpan_of_isAtom isAtom]
    exact ⟨outerStart.trans starts, stops.trans outerStop⟩
  · obtain ⟨bracket, behind, before, there⟩ :=
      Document.bracket_before_attribute grammatical stands.visited above isAttribute
    have inFront := stands.frames.next_le_start there rfl before
    rw [editedSpan_stop (by simp [isAttribute])]
    omega
  · have closed : outer.node.kind.isCompound = false := by
      have notAtom := stands.not_isAtom_of_above grammatical above
      rcases around.isEdited with isAtom | kind | kind
      · rw [notAtom] at isAtom
        cases isAtom
      · rw [kind]
        rfl
      · rw [kind]
        rfl
    obtain ⟨behind, brace, after, before, there⟩ := Document.brace_behind_statement grammatical
      stands.visited above closed (by rw [isStatement]; rfl)
    obtain ⟨c, solid, -, begins⟩ := around.begins
    have inFront := stands.frames.next_le_start begins solid behind
    have upTo := stands.frames.stop_le there rfl after
    omega

/-! ## Nodes apart -/

theorem apart_of_le (before : StandsOut document first) (behind : StandsOut document second)
    (apart : first.node.stop ≤ second.node.start) :
    (editedSpan document first).2 ≤ (editedSpan document second).1 := by
  obtain ⟨place, c, solid, -, ends, there⟩ := before.ends
  have positive := c.utf8Size_pos
  have fromLast := behind.frames.next_le_start there solid (by omega)
  by_cases isStatement : first.node.kind = .expressionStatement
  · obtain ⟨d, solidFirst, -, begins⟩ := behind.begins
    have upToFirst := before.frames.stop_le begins solidFirst apart
    rcases behind.isEdited with isAtom | isAttribute | isStatementToo
    · rw [editedSpan_of_isAtom isAtom]
      exact upToFirst
    · obtain ⟨mark, m, after, inFront, isMark, between⟩ := Document.mark_between grammatical
        before.visited behind.visited (by rw [isStatement]; rfl) isAttribute before.covers
        behind.covers apart
      have solidMark : isBlank m = false := by rcases isMark with rfl | rfl <;> rfl
      have upTo := before.frames.stop_le between solidMark after
      have fromMark := behind.frames.next_le_start between solidMark inFront
      omega
    · have line := takesLine_editedSpan before.starts before.stops isStatement
      have indent := takesLine_editedSpan behind.starts behind.stops isStatementToo
      rcases line.ends with same | all | ⟨newline, after, next, newlineThere⟩
      · omega
      · have inText := begins.lt_byteLength
        omega
      · -- spaces and tabs do not reach over the newline
        refine Nat.le_of_not_lt fun crossing => ?_
        rcases indent.indented newline _ (by omega) (by omega) newlineThere with isTab | isTab <;>
          cases isTab
  · rw [editedSpan_stop isStatement]
    omega

theorem nested_or_apart (one : StandsOut document first) (other : StandsOut document second) :
    (editedSpan document first).2 ≤ (editedSpan document second).1 ∨
      (editedSpan document second).2 ≤ (editedSpan document first).1 ∨
      ((editedSpan document second).1 ≤ (editedSpan document first).1 ∧
        (editedSpan document first).2 ≤ (editedSpan document second).2) ∨
      ((editedSpan document first).1 ≤ (editedSpan document second).1 ∧
        (editedSpan document second).2 ≤ (editedSpan document first).2) := by
  rcases Document.nested_or_apart one.visited other.visited with
    rfl | above | above | apart | apart
  · exact .inr (.inr (.inl ⟨Nat.le_refl _, Nat.le_refl _⟩))
  · exact .inr (.inr (.inr (other.inside_of_above grammatical one above)))
  · exact .inr (.inr (.inl (one.inside_of_above grammatical other above)))
  · exact .inl (one.apart_of_le grammatical other apart)
  · exact .inr (.inl (other.apart_of_le grammatical one apart))

end Grammatical

end StandsOut

/-! ## Planned edits -/

theorem text_mem_factoryNames {node : Node} {new : String}
    (given : Renaming document imports node new) :
    ∃ entry ∈ factoryRenames, document.chars node = entry.1.toList := by
  refine ⟨_, mem_factoryRenames given.successor, ?_⟩
  rw [Document.text, String.toList_ofList]

theorem isTrimmed_of_renaming {node : Node} {new : String}
    (given : Renaming document imports node new) : isTrimmed (document.chars node) = true := by
  have trimmed : ∀ entry ∈ factoryRenames, isTrimmed entry.1.toList = true := by decide
  obtain ⟨entry, listed, reads⟩ := text_mem_factoryNames given
  exact reads ▸ trimmed entry listed

def IsTidy (document : Document) : Prop :=
  ∀ edit ∈ updateRemovals document,
    edit.change.before.all (fun text => isTrimmed text.toList) = true

instance (document : Document) : Decidable (IsTidy document) :=
  inferInstanceAs <| Decidable <| ∀ edit ∈ updateRemovals document,
    edit.change.before.all (fun text => isTrimmed text.toList) = true

section Planned

variable (grammatical : Grammatical document.source document.root)
include grammatical

theorem EditedAt.standsOut (edited : EditedAt document imports edit site)
    (tidy : IsTidy document) : StandsOut document site where
  visited := edited.visited
  isEdited := by
    cases edited.purpose with
    | rename given isAtom => exact .inl isAtom
    | removal isRemoved => exact .inr isRemoved
  starts := (edited.boundaries grammatical).1
  stops := (edited.boundaries grammatical).2
  trimmed := by
    cases edited.purpose with
    | rename given => exact isTrimmed_of_renaming given
    | removal isRemoved names listed =>
        have trimmed := tidy edit listed
        rwa [edited.before, Option.all_some, Document.text, String.toList_ofList] at trimmed

theorem apart_or_inside (tidy : IsTidy document) {one other : Edit}
    (oneMember : one ∈ edits document imports) (otherMember : other ∈ edits document imports) :
    one.LiesApart other ∨ one.IsInside other ∨ other.IsInside one := by
  obtain ⟨first, oneEdited⟩ := exists_editedAt grammatical oneMember
  obtain ⟨second, otherEdited⟩ := exists_editedAt grammatical otherMember
  have cases := (oneEdited.standsOut grammatical tidy).nested_or_apart grammatical
    (otherEdited.standsOut grammatical tidy)
  rw [oneEdited.span, otherEdited.span] at cases
  simpa only [Edit.LiesApart, Edit.IsInside, or_assoc] using cases

theorem not_inside_name (names : NamesUpdate document site) {named : Site}
    (visited : named ∈ document.sites) {new : String}
    (given : Renaming document imports named.node new) (starts : named.node.start ≤ site.node.start)
    (stops : site.node.stop ≤ named.node.stop) : False := by
  have boundaries {site : Site} (visited : site ∈ document.sites) :=
    (Document.grammatical_of_mem_sites grammatical visited).production
  obtain ⟨name, nameVisited, above, reads⟩ := names
  have lies := Document.liesIn_ancestor nameVisited above
  have inside : document.chars name.node <:+: document.chars named.node :=
    slice_infix (boundaries visited).starts (boundaries nameVisited).starts
      (boundaries nameVisited).stops (boundaries visited).stops
      (starts.trans lies.start_le) (name.node.start_le_stop lies.ordered)
      (lies.le_stop.trans stops)
  have none : ∀ entry ∈ factoryRenames, ¬ updateMethod.toList <:+: entry.1.toList := by
    decide +kernel
  have method : document.chars name.node = updateMethod.toList := by
    rw [← reads, Document.text, String.toList_ofList]
  obtain ⟨entry, listed, same⟩ := text_mem_factoryNames given
  rw [same, method] at inside
  exact none entry listed inside

theorem mem_updateRemovals_of_inside (edited : EditedAt document imports edit site)
    (names : NamesUpdate document site) (held : EditedAt document imports holder outer)
    (inside : edit.IsInside holder) : holder ∈ updateRemovals document := by
  cases held.purpose with
  | removal isRemoved outerNames listed => exact listed
  | rename given isAtom =>
      have span := held.span
      rw [editedSpan_of_isAtom isAtom, Prod.mk.injEq] at span
      have frames := edited.frames grammatical
      refine (not_inside_name grammatical names held.visited given ?_ ?_).elim
      · exact span.1.le.trans (inside.1.trans frames.start_le)
      · exact frames.le_stop.trans (inside.2.trans span.2.ge)

theorem Renaming.eq_of_inside {named other : Site} {new otherNew : String}
    (visited : named ∈ document.sites) (otherVisited : other ∈ document.sites)
    (given : Renaming document imports named.node new)
    (otherGiven : Renaming document imports other.node otherNew)
    (isAtom : named.node.kind.isAtom = true) (otherAtom : other.node.kind.isAtom = true)
    (starts : named.node.start ≤ other.node.start) (stops : other.node.stop ≤ named.node.stop) :
    named = other := by
  have covers := given.start_lt_stop
  have otherCovers := otherGiven.start_lt_stop
  have isMinor {kind : Kind} (isAtom : kind.isAtom = true) : kind.isMinor = false := by
    cases kind <;> first | rfl | cases isAtom
  rcases Document.nested_or_apart visited otherVisited with same | above | above | apart | apart
  · exact same
  · have minor := Document.isMinor_of_above grammatical otherVisited above (by simp [isAtom])
    rw [isMinor otherAtom] at minor
    cases minor
  · have minor := Document.isMinor_of_above grammatical visited above (by simp [otherAtom])
    rw [isMinor isAtom] at minor
    cases minor
  · omega
  · omega

/-- An edit inside another planned one repeats it or lies inside a removal. -/
theorem repeats_or_removed (edited : EditedAt document imports edit site)
    (held : EditedAt document imports holder outer) (inside : edit.IsInside holder) :
    (holder.start = edit.start ∧ holder.stop = edit.stop ∧
        holder.replacement = edit.replacement) ∨ holder ∈ updateRemovals document := by
  cases held.purpose with
  | removal isRemoved names listed => exact .inr listed
  | rename given isAtom replacement =>
      cases edited.purpose with
      | removal isRemoved names =>
          exact .inr (mem_updateRemovals_of_inside grammatical edited names held inside)
      | rename otherGiven otherAtom otherReplacement =>
          have span := held.span
          have otherSpan := edited.span
          rw [editedSpan_of_isAtom isAtom, Prod.mk.injEq] at span
          rw [editedSpan_of_isAtom otherAtom, Prod.mk.injEq] at otherSpan
          obtain ⟨insideStart, insideStop⟩ := inside
          obtain rfl := given.eq_of_inside grammatical held.visited edited.visited otherGiven isAtom
            otherAtom (by omega) (by omega)
          have same := Option.some.inj (given.successor.symm.trans otherGiven.successor)
          exact .inl ⟨by omega, by omega, by rw [replacement, otherReplacement, same]⟩

theorem inside_holder (tidy : IsTidy document) (member : edit ∈ edits document imports)
    (holderMember : holder ∈ edits document imports) (precedes : holder.precedes edit = true)
    (overlaps : edit.start < holder.stop) : edit.IsInside holder := by
  obtain ⟨site, edited⟩ := exists_editedAt grammatical member
  have covers := edited.edit_start_lt_stop grammatical
  simp only [Edit.precedes, Bool.or_eq_true, Bool.and_eq_true, decide_eq_true_eq] at precedes
  rcases apart_or_inside grammatical tidy holderMember member with apart | ⟨before, behind⟩ | inside
  · rcases apart with apart | apart <;> omega
  · exact ⟨by omega, by omega⟩
  · exact inside

end Planned

/--
Any two edits that an upgrade plans for a text that parses lie apart, or the span of one lies inside
that of the other.  Every edit that is not carried out has a kept one that puts the same text in the
same place, or lies inside a kept one that removes an attribute or a statement forcing an update.
-/
theorem edits_nested_or_apart {path : String} {source : List Char} {document : Document}
    (parsed : Document.ofComponentFile? path source = some document) (tidy : IsTidy document)
    (imports : Imports) :
    (∀ first ∈ edits document imports, ∀ second ∈ edits document imports,
        first.LiesApart second ∨ first.IsInside second ∨ second.IsInside first) ∧
      ∃ dropped, (Edit.kept (edits document imports) ++ dropped).Perm (edits document imports) ∧
        ∀ edit ∈ dropped, ∃ holder ∈ Edit.kept (edits document imports),
          (holder.start = edit.start ∧ holder.stop = edit.stop ∧
              holder.replacement = edit.replacement) ∨
            (holder ∈ updateRemovals document ∧ edit.IsInside holder) := by
  have grammatical := Document.grammatical_of_ofComponentFile? parsed
  refine ⟨fun first firstMember second secondMember =>
    apart_or_inside grammatical tidy firstMember secondMember, ?_⟩
  obtain ⟨dropped, perm, held⟩ := Edit.exists_dropped_kept (edits document imports)
  refine ⟨dropped, perm, fun edit member => ?_⟩
  obtain ⟨holder, isKept, -, precedes, -, overlaps⟩ := held edit member
  have planned : edit ∈ edits document imports := perm.subset (List.mem_append_right _ member)
  have holderPlanned := Edit.mem_of_mem_kept isKept
  have inside := inside_holder grammatical tidy planned holderPlanned precedes overlaps
  obtain ⟨site, edited⟩ := exists_editedAt grammatical planned
  obtain ⟨outer, holderEdited⟩ := exists_editedAt grammatical holderPlanned
  exact ⟨holder, isKept, (repeats_or_removed grammatical edited holderEdited inside).imp_right
    fun listed => ⟨listed, inside⟩⟩

def nestedUpdates : List Char :=
  ("import \x7b ArchbaseDataSource \x7d from '@archbase/react';\n" ++
    "f.forceUpdate(ArchbaseDataSource, () => \x7b\n  g.forceUpdate();\n\x7d);\n").toList

theorem edits_nested_or_apart_nestedUpdates :
    ∃ document, Document.ofComponentFile? "src/App.tsx" nestedUpdates = some document ∧
      IsTidy document ∧
      let planned := edits document (Imports.ofDocument document)
      planned.map Edit.span = [(9, 27), (68, 86), (54, 119), (96, 115)] ∧
        (Edit.kept planned).map Edit.span = [(9, 27), (54, 119)] ∧
        (∀ first ∈ planned, ∀ second ∈ planned,
          first.LiesApart second ∨ first.IsInside second ∨ second.IsInside first) ∧
        ∃ dropped, (Edit.kept planned ++ dropped).Perm planned ∧
          ∀ edit ∈ dropped, ∃ holder ∈ Edit.kept planned,
            (holder.start = edit.start ∧ holder.stop = edit.stop ∧
                holder.replacement = edit.replacement) ∨
              (holder ∈ updateRemovals document ∧ edit.IsInside holder) := by
  have read : (Document.ofComponentFile? "src/App.tsx" nestedUpdates).any (fun document =>
      let planned := edits document (Imports.ofDocument document)
      decide (IsTidy document) &&
        (planned.map Edit.span = [(9, 27), (68, 86), (54, 119), (96, 115)] &&
          (Edit.kept planned).map Edit.span = [(9, 27), (54, 119)])) = true := by decide +kernel
  obtain ⟨document, parsed, found⟩ := (Option.any_eq_true _ _).mp read
  simp only [Bool.and_eq_true, decide_eq_true_eq] at found
  obtain ⟨tidy, planned, kept⟩ := found
  have nested := edits_nested_or_apart parsed tidy (Imports.ofDocument document)
  exact ⟨document, parsed, tidy, planned, kept, nested.1, nested.2⟩

-- a next-line control begins the second statement, and is white space to the first one
example :
    (Document.ofComponentFile? "src/App.tsx"
        "ds.forceUpdate();\u0085\n.forceUpdate();\n".toList).map (fun document =>
      (decide (IsTidy document),
        (edits document (Imports.ofDocument document)).map fun edit =>
          (edit.start, edit.stop))) =
      some (false, [(0, 20), (17, 35)]) := by decide +kernel

end DataSourceUpgrade

end ComponentSurvey
