import ComponentSurvey.Proofs.Migration.Edit
import Mathlib.Tactic.MkIffOfInductiveProp

/-!
# Edits as one substitution

Edits are sorted, those that begin inside a kept one are dropped, and the others are carried out one
by one from the last to the first.  That comes to putting all kept texts in the place of their spans
at once: between the spans the text is copied as it is.
-/

namespace ComponentSurvey.Edit

open Text

theorem dropOverlaps_sublist (edits : List Edit) (reached : Nat) :
    (dropOverlaps reached edits).Sublist edits := by
  induction edits generalizing reached with
  | nil => exact .slnil
  | cons edit rest ih =>
      rw [dropOverlaps]
      split
      · exact (ih reached).cons edit
      · exact (ih edit.stop).cons_cons edit

theorem mem_of_mem_kept {edits : List Edit} {edit : Edit} (member : edit ∈ kept edits) :
    edit ∈ edits :=
  Order.mem_sortBy.mp ((dropOverlaps_sublist _ 0).subset member)

theorem Placed.reached_le_start {stop reached : Nat} {edits : List Edit}
    (placed : Placed stop reached edits) {edit : Edit} (member : edit ∈ edits) :
    reached ≤ edit.start := by
  induction edits generalizing reached with
  | nil => cases member
  | cons first rest ih =>
      obtain ⟨before, inside, later⟩ := placed
      rcases List.mem_cons.mp member with rfl | inRest
      · exact before
      · exact before.trans (inside.trans (ih later inRest))

theorem Placed.pairwise {stop reached : Nat} {edits : List Edit}
    (placed : Placed stop reached edits) :
    edits.Pairwise fun first second =>
      first.start ≤ second.start ∧ first.stop ≤ second.start := by
  induction edits generalizing reached with
  | nil => exact .nil
  | cons edit rest ih =>
      obtain ⟨-, inside, later⟩ := placed
      refine List.pairwise_cons.mpr ⟨fun other member => ?_, ih later⟩
      have behind := later.reached_le_start member
      exact ⟨inside.trans behind, behind⟩

theorem exists_dropped (edits : List Edit) (reached : Nat) :
    ∃ dropped, (dropOverlaps reached edits ++ dropped).Perm edits ∧
      ∀ edit ∈ dropped, edit.start < reached ∨
        ∃ holder ∈ dropOverlaps reached edits,
          [holder, edit].Sublist edits ∧ edit.start < holder.stop := by
  -- a dropped edit leaves the offset as it is, a kept one moves it to its end
  induction edits generalizing reached with
  | nil => exact ⟨[], .refl [], fun _ member => by cases member⟩
  | cons first rest ih =>
      rw [dropOverlaps]
      split
      · rename_i overlaps
        obtain ⟨dropped, perm, inside⟩ := ih reached
        refine ⟨first :: dropped, List.perm_middle.trans (perm.cons first), ?_⟩
        intro edit member
        rcases List.mem_cons.mp member with rfl | later
        · exact .inl overlaps
        · refine (inside edit later).imp_right ?_
          rintro ⟨holder, isKept, inFront, holds⟩
          exact ⟨holder, isKept, inFront.cons first, holds⟩
      · obtain ⟨dropped, perm, inside⟩ := ih first.stop
        refine ⟨dropped, perm.cons first, fun edit member => .inr ?_⟩
        rcases inside edit member with inFirst | ⟨holder, isKept, inFront, holds⟩
        · have later : edit ∈ rest := perm.subset (List.mem_append_right _ member)
          exact ⟨first, List.mem_cons_self, (List.singleton_sublist.mpr later).cons_cons first,
            inFirst⟩
        · exact ⟨holder, List.mem_cons_of_mem _ isKept, inFront.cons first, holds⟩

theorem pairwise_precedes_sorted (edits : List Edit) :
    (Order.sortBy precedes edits).Pairwise fun first second => first.precedes second = true :=
  (Order.pairwise_sortBy precedes_iff edits).imp fun ordered => (precedes_iff _ _).mpr ordered

/-- A dropped edit comes after a kept one in the order of the sort and begins inside it. -/
theorem exists_dropped_kept (edits : List Edit) :
    ∃ dropped, (kept edits ++ dropped).Perm edits ∧
      ∀ edit ∈ dropped, ∃ holder ∈ kept edits,
        [holder, edit].Sublist (Order.sortBy precedes edits) ∧ holder.precedes edit = true ∧
          holder.start ≤ edit.start ∧ edit.start < holder.stop := by
  obtain ⟨dropped, perm, inside⟩ := exists_dropped (Order.sortBy precedes edits) 0
  refine ⟨dropped, perm.trans (Order.sortBy_perm edits), fun edit member => ?_⟩
  obtain ⟨holder, isKept, inFront, holds⟩ :=
    (inside edit member).resolve_left (Nat.not_lt_zero _)
  have ordered : holder.precedes edit = true :=
    List.pairwise_iff_forall_sublist.mp (pairwise_precedes_sorted edits) inFront
  exact ⟨holder, isKept, inFront, ordered, start_le_of_precedes ordered, holds⟩

/-- An edit of whole characters of a text. -/
@[mk_iff]
structure Spans (source : List Char) (edit : Edit) : Prop where
  ordered : edit.start ≤ edit.stop
  starts : IsBoundary source edit.start
  stops : IsBoundary source edit.stop

instance (source : List Char) (edit : Edit) : Decidable (edit.Spans source) :=
  decidable_of_iff _ (spans_iff source edit).symm

theorem Spans.fits {source : List Char} {edit : Edit} (spans : edit.Spans source) :
    edit.Fits (byteLength source) where
  start_le_stop := spans.ordered
  stop_le := spans.stops.le_byteLength

/-- `Substituted offset text edits result` holds of a text that begins at the offset: the result
is that text with every span replaced, and the gaps around the spans are copied. -/
inductive Substituted : Nat → List Char → List Edit → List Char → Prop
  | done (offset : Nat) (text : List Char) : Substituted offset text [] text
  | next {offset : Nat} {gap span text result : List Char} {edit : Edit} {edits : List Edit}
      (starts : offset + byteLength gap = edit.start)
      (stops : edit.start + byteLength span = edit.stop)
      (later : Substituted edit.stop text edits result) :
      Substituted offset (gap ++ span ++ text) (edit :: edits)
        (gap ++ edit.replacement ++ result)

theorem Substituted.unique {offset : Nat} {text first second : List Char} {edits : List Edit}
    (isFirst : Substituted offset text edits first)
    (isSecond : Substituted offset text edits second) : first = second := by
  induction isFirst generalizing second with
  | done => cases isSecond; rfl
  | @next offset gap span text result edit edits starts stops later ih =>
      generalize whole : gap ++ span ++ text = given at isSecond
      cases isSecond with
      | @next _ otherGap otherSpan otherText _ _ _ otherStarts otherStops otherLater =>
          rw [List.append_assoc, List.append_assoc] at whole
          obtain ⟨rfl, behindGap⟩ := append_inj_of_byteLength (by omega) whole
          obtain ⟨rfl, rfl⟩ := append_inj_of_byteLength (by omega) behindGap
          rw [ih otherLater]

/-- From any boundary on, the text put together edit by edit is the substituted one. -/
theorem substituted_between {source : List Char} {edits : List Edit} {reached stop : Nat}
    (spans : ∀ edit ∈ edits, edit.Spans source) (reaches : IsBoundary source reached)
    (placed : Placed stop reached edits) :
    Substituted reached (stretch source reached stop) edits
      (between source stop reached edits) := by
  induction edits generalizing reached with
  | nil => exact .done _ _
  | cons edit rest ih =>
      obtain ⟨before, inside, later⟩ := placed
      have here := spans edit List.mem_cons_self
      have behind := ih (fun other member => spans other (List.mem_cons_of_mem _ member))
        here.stops later
      have within := later.reached_le
      rw [← stretch_append before (inside.trans within), ← stretch_append inside within,
        ← List.append_assoc, between]
      exact .next (byteLength_stretch before reaches here.starts)
        (byteLength_stretch inside here.starts here.stops) behind

theorem substituted_applyEdits {source : List Char} {edits : List Edit}
    (spans : ∀ edit ∈ edits, edit.Spans source) :
    Substituted 0 source (kept edits) (applyEdits source edits).1 := by
  have fits : ∀ edit ∈ edits, edit.Fits (byteLength source) :=
    fun edit member => (spans edit member).fits
  have substituted := substituted_between (fun edit member => spans edit (mem_of_mem_kept member))
    (isBoundary_zero source) (placed_kept fits)
  rwa [stretch_zero, takeBytes_of_le (Nat.le_refl _), ← applyEdits_eq_between fits] at substituted

/--
Edits of whole characters, in any order, are one substitution.  The kept ones lie apart and in
order; every other edit comes after a kept one in the order of the sort and begins before that one
ends, at its start at the earliest.  The result is the only text that has every kept span replaced
and all else copied, and the changes are those of the kept edits.
-/
theorem applyEdits_simultaneous {source : List Char} {edits : List Edit}
    (spans : ∀ edit ∈ edits, edit.Spans source) :
    ((kept edits).Pairwise fun first second =>
        first.start ≤ second.start ∧ first.stop ≤ second.start) ∧
      (∃ dropped, (kept edits ++ dropped).Perm edits ∧
        ∀ edit ∈ dropped, ∃ holder ∈ kept edits,
          [holder, edit].Sublist (Order.sortBy precedes edits) ∧
            holder.precedes edit = true ∧
            holder.start ≤ edit.start ∧ edit.start < holder.stop) ∧
      (∀ result, Substituted 0 source (kept edits) result ↔
        result = (applyEdits source edits).1) ∧
      (applyEdits source edits).2 = (kept edits).map Edit.change := by
  have placed := placed_kept fun edit member => (spans edit member).fits
  have substituted := substituted_applyEdits spans
  refine ⟨placed.pairwise, exists_dropped_kept edits, fun result => ⟨?_, ?_⟩, rfl⟩
  · exact fun isResult => isResult.unique substituted
  · rintro rfl
    exact substituted

def crowdedEdits : List Edit :=
  let edit (start stop : Nat) (replacement : String) : Edit :=
    ⟨start, stop, replacement.toList, ⟨.update, replacement, none, none, none⟩⟩
  [edit 6 9 "tail", edit 2 6 "late", edit 0 3 "first", edit 0 3 "again", edit 1 2 "nested",
    edit 5 5 "empty", edit 5 6 "next"]

theorem applyEdits_simultaneous_crowded :
    (∀ edit ∈ crowdedEdits, edit.Spans "café-bar!".toList) ∧
      (applyEdits "café-bar!".toList crowdedEdits).1 = "firsténexttail!".toList ∧
      Substituted 0 "café-bar!".toList (kept crowdedEdits) "firsténexttail!".toList ∧
      (applyEdits "café-bar!".toList crowdedEdits).2.map Change.description =
        ["first", "next", "tail"] := by
  have spans : ∀ edit ∈ crowdedEdits, edit.Spans "café-bar!".toList := by decide
  have text : (applyEdits "café-bar!".toList crowdedEdits).1 = "firsténexttail!".toList := by
    decide
  obtain ⟨-, -, substituted, changes⟩ := applyEdits_simultaneous spans
  refine ⟨spans, text, (substituted _).mpr text.symm, ?_⟩
  rw [changes]
  decide

end ComponentSurvey.Edit
