import ComponentSurvey.Migration.AttributeRename
import ComponentSurvey.Proofs.Migration.EditSpans
import ComponentSurvey.Proofs.Migration.Repetition
import ComponentSurvey.Proofs.Migration.Substitution
import ComponentSurvey.Proofs.Text.Lines

/-!
# Where changes were made

Edits are planned by several passes and sorted by spans that take white space along, but every
change names the node that it is about.  The nodes of the kept edits lie apart and in order, and so
do the positions and the texts that an upgrade reports.
-/

namespace ComponentSurvey

open Syntax Text

/-- A change names the line and column of a stretch of the text, and from that position on the text
reads what the change says stood there. -/
structure Change.Occupies (source : List Char) (change : Change) (place : Span) : Prop where
  starts : IsBoundary source place.start
  stops : IsBoundary source place.stop
  covers : place.start < place.stop
  position : change.position = some (lineColumn source place.start)
  before : change.before = some (String.ofList (slice source place.start place.stop))
  reads : slice source place.start place.stop <+: textAt source (lineColumn source place.start)

theorem slice_prefix_textAt {source : List Char} {start stop : Nat}
    (starts : IsBoundary source start) (stops : IsBoundary source stop) (ordered : start ≤ stop) :
    slice source start stop <+: textAt source (lineColumn source start) := by
  obtain ⟨front, back, whole, length, -⟩ := starts.exists_parts stops ordered
  refine ⟨back, ?_⟩
  conv_rhs => rw [textAt_lineColumn starts, whole, ← length, dropBytes_byteLength]
  rw [length]

namespace DataSourceUpgrade

variable {document : Document} {imports : Imports} {edit : Edit}

theorem exists_place (grammatical : Grammatical document.source document.root)
    (member : edit ∈ edits document imports) :
    ∃ place : Span, edit.change.Occupies document.source place ∧
      edit.start ≤ place.start ∧ place.stop ≤ edit.stop := by
  obtain ⟨site, edited⟩ := exists_editedAt grammatical member
  obtain ⟨starts, stops⟩ := edited.boundaries grammatical
  have covers := edited.start_lt_stop
  have frames := edited.frames grammatical
  exact ⟨⟨site.node.start, site.node.stop⟩,
    ⟨starts, stops, covers, edited.position, edited.before,
      slice_prefix_textAt starts stops covers.le⟩,
    frames.start_le, frames.le_stop⟩

/--
Every change that an upgrade reports names a line and a column of the text it was given, at which
the text reads what the change says stood there.  The stretches that the changes name lie apart and
in the order of the changes, and so do their lines and columns.
-/
theorem changes_located (path : String) (source : List Char) :
    ∃ places : List Span,
      List.Forall₂ (fun change place => change.Occupies source place)
          (run path source).changes places ∧
        places.Pairwise (fun first second => first.stop ≤ second.start) ∧
        (run path source).changes.Pairwise fun first second =>
          ∃ position later, first.position = some position ∧ second.position = some later ∧
            toLex position < toLex later := by
  rw [run]
  cases parsed : Document.ofComponentFile? path source with
  | none => exact ⟨[], .nil, .nil, .nil⟩
  | some document =>
      obtain rfl := Document.source_of_ofComponentFile? parsed
      have grammatical := Document.grammatical_of_ofComponentFile? parsed
      have each : ∀ edit ∈ Edit.kept (edits document (Imports.ofDocument document)),
          ∃ place : Span, edit.change.Occupies document.source place ∧
            edit.start ≤ place.start ∧ place.stop ≤ edit.stop :=
        fun edit member => exists_place grammatical (Edit.mem_of_mem_kept member)
      choose! place occupies starts stops using each
      have apart : (Edit.kept (edits document (Imports.ofDocument document))).Pairwise
          fun first second => (place first).stop ≤ (place second).start :=
        (Edit.placed_kept (edits_fit document _)).pairwise.imp_of_mem
          fun {first second} firstMember secondMember placed =>
            (stops first firstMember).trans (placed.2.trans (starts second secondMember))
      refine ⟨(Edit.kept (edits document (Imports.ofDocument document))).map place, ?_, ?_, ?_⟩
      · exact List.forall₂_map_left_iff.mpr <| List.forall₂_map_right_iff.mpr <|
          List.forall₂_same.mpr occupies
      · exact List.pairwise_map.mpr apart
      · refine List.pairwise_map.mpr <| apart.imp_of_mem
          fun {first second} firstMember secondMember before => ?_
        have here := occupies first firstMember
        have there := occupies second secondMember
        exact ⟨_, _, here.position, there.position,
          lineColumn_lt_of_lt here.starts there.starts (here.covers.trans_le before)⟩

end DataSourceUpgrade

end ComponentSurvey
