import ComponentSurvey.Order.Total
import ComponentSurvey.Proofs.Migration.AttributeSpans
import ComponentSurvey.Proofs.Migration.Drift
import ComponentSurvey.Proofs.Migration.Repetition

/-!
# Renames one after the other

Each rename meets the text that the one before it has left, and finds its names there anew, in a
syntax tree or in plain text.  What it replaces are names in order and nothing else.
-/

namespace ComponentSurvey

open Syntax Text

def Change.growth (change : Change) : ℤ :=
  byteLength (change.after.getD "").toList - byteLength (change.before.getD "").toList

def Change.StandsBefore (first second : Change) : Prop :=
  ∃ position later, first.position = some position ∧ second.position = some later ∧
    toLex position < toLex later

namespace AttributeRename

section Edits

variable {rename : AttributeRename} {code : List Char} {spans : List Span}

def edit (rename : AttributeRename) (code : List Char) (span : Span) : Edit :=
  ⟨span.start, span.stop, rename.new.toList, rename.change code span⟩

theorem perform_eq (rename : AttributeRename) (code : List Char) (spans : List Span) :
    rename.perform code spans = Edit.perform code (spans.map (rename.edit code)) := by
  rw [Edit.perform, List.foldr_map]
  rfl

theorem growth_change (code : List Char) (span : Span) : (rename.change code span).growth =
    byteLength rename.new.toList - byteLength rename.old.toList := by
  simp only [Change.growth, change, Option.getD_some, String.toList_append, byteLength_append,
    toString]
  omega

theorem growth_edit {span : Span} (spells : Spells code rename.old.toList span) :
    (rename.edit code span).growth = (rename.change code span).growth := by
  obtain ⟨-, -, -, -, stop⟩ := spells
  simp only [growth_change, Edit.growth, edit, stop]
  omega

theorem spans_edit {span : Span} (spells : Spells code rename.old.toList span) :
    (rename.edit code span).Spans code :=
  ⟨spells.start_le_stop, spells.starts, spells.stops⟩

theorem placed_edits (spell : ∀ span ∈ spans, Spells code rename.old.toList span)
    (inOrder : InOrder spans) {reached : Nat} (within : reached ≤ byteLength code)
    (behind : ∀ span ∈ spans, reached ≤ span.start) :
    Edit.Placed (byteLength code) reached (spans.map (rename.edit code)) := by
  induction spans generalizing reached with
  | nil => exact within
  | cons span rest ih =>
      obtain ⟨here, others⟩ := List.forall_mem_cons.mp spell
      obtain ⟨apart, ordered⟩ := List.pairwise_cons.mp inOrder
      exact ⟨behind span List.mem_cons_self, here.start_le_stop,
        ih others ordered here.stops.le_byteLength fun later member => (apart later member).2⟩

end Edits

end AttributeRename

/-- A rename that is carried out: the text it meets, the names it finds there, and the text that it
leaves. -/
structure RenameTurn where
  rename : AttributeRename
  met : List Char
  spans : List Span
  left : List Char

namespace RenameTurn

def edits (turn : RenameTurn) : List Edit :=
  turn.spans.map (turn.rename.edit turn.met)

def changes (turn : RenameTurn) : List Change :=
  turn.spans.map (turn.rename.change turn.met)

def ofText (path : String) (code : List Char) (rename : AttributeRename) : RenameTurn :=
  ⟨rename, code, rename.spans path code, (rename.apply path code).1⟩

structure Finds (turn : RenameTurn) : Prop where
  spells : ∀ span ∈ turn.spans, AttributeRename.Spells turn.met turn.rename.old.toList span
  inOrder : AttributeRename.InOrder turn.spans

/-- The new name is put in the place of each find, and everything else is copied. -/
structure Replaces (turn : RenameTurn) : Prop extends turn.Finds where
  substituted : Edit.Substituted 0 turn.met turn.edits turn.left

section Finds

variable {turn : RenameTurn} (finds : turn.Finds)
include finds

theorem Finds.placed : Edit.Placed (byteLength turn.met) 0 turn.edits :=
  AttributeRename.placed_edits finds.spells finds.inOrder (Nat.zero_le _) fun _ _ => Nat.zero_le _

theorem Finds.whole : ∀ edit ∈ turn.edits, edit.Spans turn.met :=
  List.forall_mem_map.mpr fun span member => AttributeRename.spans_edit (finds.spells span member)

theorem Finds.substituted : Edit.Substituted 0 turn.met turn.edits
    (Edit.perform turn.met turn.edits) := by
  have substituted := Edit.substituted_between finds.whole (isBoundary_zero turn.met) finds.placed
  rw [stretch_zero, takeBytes_of_le (Nat.le_refl _)] at substituted
  rwa [Edit.perform_eq_between finds.placed, takeBytes_zero, List.nil_append]

end Finds

theorem replaces_ofText (path : String) (code : List Char) (rename : AttributeRename) :
    (ofText path code rename).Replaces := by
  obtain ⟨spell, inOrder⟩ := rename.spans_spec path code
  have finds : (ofText path code rename).Finds := ⟨spell, inOrder⟩
  have performed : (ofText path code rename).left =
      Edit.perform code (ofText path code rename).edits := rename.perform_eq code _
  exact ⟨finds, performed ▸ finds.substituted⟩

namespace Replaces

variable {turn : RenameTurn} (replaces : turn.Replaces)
include replaces

theorem left_eq : turn.left = Edit.perform turn.met turn.edits :=
  replaces.substituted.unique replaces.toFinds.substituted

theorem growth_edits : turn.edits.map Edit.growth = turn.changes.map Change.growth := by
  rw [edits, changes, List.map_map, List.map_map]
  exact List.map_congr_left fun span member =>
    AttributeRename.growth_edit (replaces.spells span member)

theorem byteLength_left :
    (byteLength turn.left : ℤ) = byteLength turn.met + (turn.changes.map Change.growth).sum := by
  rw [← replaces.growth_edits]
  exact replaces.substituted.byteLength_eq

theorem changes_inOrder : turn.changes.Pairwise Change.StandsBefore := by
  refine List.pairwise_map.mpr (replaces.inOrder.imp_of_mem fun one other apart => ?_)
  exact ⟨_, _, rfl, rfl, lineColumn_lt_of_lt (replaces.spells _ one).starts
    (replaces.spells _ other).starts apart.1⟩

end Replaces

/-- From one text to another, each turn meeting what the one before it left. -/
def Linked : List Char → List RenameTurn → List Char → Prop
  | first, [], last => first = last
  | first, turn :: rest, last => turn.met = first ∧ Linked turn.left rest last

def ofRenames (path : String) : List Char → List AttributeRename → List RenameTurn
  | _, [] => []
  | code, rename :: rest =>
    let turn := ofText path code rename
    turn :: ofRenames path turn.left rest

variable {path : String} {source : List Char}

theorem map_rename_ofRenames (path : String) (source : List Char) (renames : List AttributeRename) :
    (ofRenames path source renames).map rename = renames := by
  induction renames generalizing source with
  | nil => rfl
  | cons rename rest ih => rw [ofRenames, List.map_cons, ih, ofText]

theorem exists_of_mem_ofRenames {renames : List AttributeRename} {turn : RenameTurn}
    (member : turn ∈ ofRenames path source renames) :
    ∃ code, ∃ rename ∈ renames, turn = ofText path code rename := by
  induction renames generalizing source with
  | nil => cases member
  | cons rename rest ih =>
      rcases List.mem_cons.mp member with rfl | later
      · exact ⟨source, rename, List.mem_cons_self, rfl⟩
      · obtain ⟨code, other, listed, same⟩ := ih later
        exact ⟨code, other, List.mem_cons_of_mem _ listed, same⟩

theorem foldl_renameStep (path : String) (renames : List AttributeRename)
    (reached : List Char × List Change) :
    Linked reached.1 (ofRenames path reached.1 renames)
        (renames.foldl (renameStep path) reached).1 ∧
      (renames.foldl (renameStep path) reached).2 =
        reached.2 ++ (ofRenames path reached.1 renames).flatMap changes := by
  induction renames generalizing reached with
  | nil => exact ⟨rfl, (List.append_nil _).symm⟩
  | cons rename rest ih =>
      obtain ⟨linked, reported⟩ := ih (renameStep path reached rename)
      refine ⟨⟨rfl, linked⟩, reported.trans ?_⟩
      rw [ofRenames, List.flatMap_cons, ← List.append_assoc]
      rfl

theorem Linked.byteLength_eq {first last : List Char} {turns : List RenameTurn}
    (linked : Linked first turns last) (replace : ∀ turn ∈ turns, turn.Replaces) :
    (byteLength last : ℤ) =
      byteLength first + ((turns.flatMap changes).map Change.growth).sum := by
  induction turns generalizing first with
  | nil =>
      obtain rfl : first = last := linked
      simp
  | cons turn rest ih =>
      obtain ⟨here, others⟩ := List.forall_mem_cons.mp replace
      obtain ⟨rfl, later⟩ := linked
      have length := here.byteLength_left
      have behind := ih later others
      rw [List.flatMap_cons, List.map_append, List.sum_append]
      omega

theorem length_changes (turns : List RenameTurn) :
    (turns.flatMap changes).length = Order.total (fun turn => turn.spans.length) turns := by
  induction turns with
  | nil => rfl
  | cons turn rest ih => simp [ih, changes]

/--
Renames succeed on every text.  They are carried out in turn, each on the text that the one before
it left, and each puts its new name in the place of stretches that spell its old name, lie apart
and in order, and copies everything else.  It reports one change for each of them, from earlier
positions to later ones.  So there are as many changes as replaced names, and a text grows by what
the changes add.
-/
theorem applyRenames_replaces (renames : List AttributeRename) (path : String)
    (source : List Char) :
    ∃ (turns : List RenameTurn) (code : List Char),
      applyRenames renames path source = .success code (turns.flatMap changes) [] ∧
      turns.map rename = renames ∧ Linked source turns code ∧
      (∀ turn ∈ turns, turn.spans = turn.rename.spans path turn.met ∧ turn.Replaces ∧
        turn.changes.Pairwise Change.StandsBefore ∧
        ∀ change ∈ turn.changes, change.growth =
          byteLength turn.rename.new.toList - byteLength turn.rename.old.toList) ∧
      (turns.flatMap changes).length = Order.total (fun turn => turn.spans.length) turns ∧
      (byteLength code : ℤ) =
        byteLength source + ((turns.flatMap changes).map Change.growth).sum := by
  obtain ⟨linked, reported⟩ := foldl_renameStep path renames (source, [])
  have replace : ∀ turn ∈ ofRenames path source renames, turn.Replaces := by
    intro turn member
    obtain ⟨code, rename, -, rfl⟩ := exists_of_mem_ofRenames member
    exact replaces_ofText path code rename
  refine ⟨ofRenames path source renames, _, ?_, map_rename_ofRenames path source renames, linked,
    fun turn member => ?_, ?_, linked.byteLength_eq replace⟩
  · rw [applyRenames_eq, reported, List.nil_append]
  · have here := replace turn member
    obtain ⟨code, rename, -, rfl⟩ := exists_of_mem_ofRenames member
    refine ⟨rfl, here, here.changes_inOrder, List.forall_mem_map.mpr fun span _ => ?_⟩
    exact AttributeRename.growth_change _ _
  · exact length_changes _

end RenameTurn

end ComponentSurvey
