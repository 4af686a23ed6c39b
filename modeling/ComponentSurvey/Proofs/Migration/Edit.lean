import ComponentSurvey.Migration.Edit
import ComponentSurvey.Proofs.Order.Sorting
import ComponentSurvey.Proofs.Text.Position
import Mathlib.Data.Prod.Lex

/-!
# Edits carried out

The edits that are kept lie apart and in order, so that carrying them out from the last to the
first puts all their texts in place at once.  An edit that is not kept begins inside one that is.
-/

namespace ComponentSurvey.Edit

open Text

structure Fits (length : Nat) (edit : Edit) : Prop where
  start_le_stop : edit.start ≤ edit.stop
  stop_le : edit.stop ≤ length

def Placed (stop : Nat) : Nat → List Edit → Prop
  | reached, [] => reached ≤ stop
  | reached, edit :: rest =>
    reached ≤ edit.start ∧ edit.start ≤ edit.stop ∧ Placed stop edit.stop rest

theorem Placed.widen {stop reached limit : Nat} {edits : List Edit}
    (placed : Placed stop reached edits) (within : stop ≤ limit) :
    Placed limit reached edits := by
  induction edits generalizing reached with
  | nil => exact Nat.le_trans placed within
  | cons edit rest ih => exact ⟨placed.1, placed.2.1, ih placed.2.2⟩

theorem Placed.reached_le {stop reached : Nat} {edits : List Edit}
    (placed : Placed stop reached edits) : reached ≤ stop := by
  induction edits generalizing reached with
  | nil => exact placed
  | cons edit rest ih =>
      obtain ⟨before, inside, later⟩ := placed
      have remaining := ih later
      omega

theorem Placed.from_le {stop middle reached : Nat} {edits : List Edit}
    (placed : Placed stop middle edits) (within : reached ≤ middle) :
    Placed stop reached edits := by
  cases edits with
  | nil => exact Nat.le_trans within placed
  | cons edit rest => exact ⟨Nat.le_trans within placed.1, placed.2⟩

theorem placed_append {stop reached : Nat} {first second : List Edit} :
    Placed stop reached (first ++ second) ↔
      ∃ middle, Placed middle reached first ∧ Placed stop middle second := by
  induction first generalizing reached with
  | nil =>
      constructor
      · intro placed
        exact ⟨reached, Nat.le_refl reached, placed⟩
      · rintro ⟨middle, before, placed⟩
        exact placed.from_le before
  | cons edit rest ih =>
      simp only [List.cons_append, Placed, ih]
      tauto

theorem placed_dropOverlaps {length reached : Nat} {edits : List Edit}
    (fits : ∀ edit ∈ edits, edit.Fits length) (within : reached ≤ length) :
    Placed length reached (dropOverlaps reached edits) := by
  induction edits generalizing reached with
  | nil => exact within
  | cons edit rest ih =>
      have here := fits edit List.mem_cons_self
      have others : ∀ other ∈ rest, other.Fits length :=
        fun other member => fits other (List.mem_cons_of_mem _ member)
      rw [dropOverlaps]
      split
      · exact ih others within
      · rename_i behind
        exact ⟨Nat.le_of_not_lt behind, here.start_le_stop, ih others here.stop_le⟩

theorem placed_kept {length : Nat} {edits : List Edit}
    (fits : ∀ edit ∈ edits, edit.Fits length) : Placed length 0 (kept edits) :=
  placed_dropOverlaps (fun edit member => fits edit (Order.mem_sortBy.mp member))
    (Nat.zero_le length)

def sortKey (edit : Edit) : Nat ×ₗ Natᵒᵈ := toLex (edit.start, OrderDual.toDual edit.stop)

theorem precedes_iff (first second : Edit) :
    first.precedes second = true ↔ first.sortKey ≤ second.sortKey := by
  simp [precedes, sortKey, Prod.Lex.toLex_le_toLex]

theorem start_le_of_precedes {first second : Edit} (precedes : first.precedes second = true) :
    first.start ≤ second.start := by
  simp only [Edit.precedes, Bool.or_eq_true, Bool.and_eq_true, decide_eq_true_eq] at precedes
  omega

/-- Along edits in order, one that covers some text begins before what was reached or inside an
edit that is kept. -/
theorem covered_dropOverlaps {edits : List Edit} {reached : Nat}
    (sorted : edits.Pairwise fun first second => first.precedes second = true) {edit : Edit}
    (member : edit ∈ edits) (covers : edit.start < edit.stop) :
    edit.start < reached ∨
      ∃ holder ∈ dropOverlaps reached edits,
        holder.precedes edit = true ∧ edit.start < holder.stop := by
  induction edits generalizing reached with
  | nil => cases member
  | cons first rest ih =>
      obtain ⟨firstPrecedes, restSorted⟩ := List.pairwise_cons.mp sorted
      rw [dropOverlaps]
      split
      · rename_i overlaps
        rcases List.mem_cons.mp member with rfl | later
        · exact .inl overlaps
        · exact ih restSorted later
      · rcases List.mem_cons.mp member with rfl | later
        · exact .inr ⟨edit, List.mem_cons_self, by simp [precedes], covers⟩
        · rcases ih restSorted later with inFirst | ⟨holder, kept, holds⟩
          · exact .inr ⟨first, List.mem_cons_self, firstPrecedes edit later, inFirst⟩
          · exact .inr ⟨holder, List.mem_cons_of_mem _ kept, holds⟩

theorem covered_kept {edits : List Edit} {edit : Edit} (member : edit ∈ edits)
    (covers : edit.start < edit.stop) :
    ∃ holder ∈ kept edits, holder.precedes edit = true ∧ edit.start < holder.stop := by
  have sorted : (Order.sortBy precedes edits).Pairwise
      fun first second => first.precedes second = true :=
    (Order.pairwise_sortBy precedes_iff edits).imp fun ordered => (precedes_iff _ _).mpr ordered
  exact (covered_dropOverlaps sorted (Order.mem_sortBy.mpr member) covers).resolve_left
    (Nat.not_lt_zero _)

/-- The text between two offsets with every edit there in the place of its span. -/
def between (source : List Char) (stop : Nat) : Nat → List Edit → List Char
  | reached, [] => stretch source reached stop
  | reached, edit :: rest =>
    stretch source reached edit.start ++ edit.replacement ++ between source stop edit.stop rest

theorem stretch_append_between {source : List Char} {stop reached : Nat} {edits : List Edit}
    {middle : Nat} (within : reached ≤ middle) (placed : Placed stop middle edits) :
    stretch source reached middle ++ between source stop middle edits =
      between source stop reached edits := by
  cases edits with
  | nil => exact stretch_append within placed source
  | cons edit rest =>
      rw [between, between, ← stretch_append within placed.1, List.append_assoc,
        List.append_assoc, List.append_assoc]

theorem perform_eq_between {source : List Char} {edits : List Edit} {reached : Nat}
    (placed : Placed (byteLength source) reached edits) :
    perform source edits =
      takeBytes reached source ++ between source (byteLength source) reached edits := by
  -- the later edits are carried out first and leave the text up to them as it was
  induction edits generalizing reached with
  | nil =>
      rw [between, stretch, takeBytes_of_le (Nat.le_refl _), takeBytes_append_dropBytes]
      rfl
  | cons edit rest ih =>
      obtain ⟨before, inside, later⟩ := placed
      have within := later.reached_le
      have front : edit.start ≤ byteLength (takeBytes edit.stop source) :=
        inside.trans (byteLength_takeBytes_ge within)
      calc perform source (edit :: rest)
          = replaceRange (takeBytes edit.stop source ++
              between source (byteLength source) edit.stop rest) edit.start edit.stop
              edit.replacement := by rw [← ih later]; rfl
        _ = takeBytes edit.start source ++ edit.replacement ++
              between source (byteLength source) edit.stop rest := by
            rw [replaceRange, takeBytes_append front, takeBytes_takeBytes inside,
              dropBytes_takeBytes_append within]
        _ = takeBytes reached source ++
              between source (byteLength source) reached (edit :: rest) := by
            rw [between, ← stretch_zero source edit.start, ← stretch_zero source reached,
              ← stretch_append (Nat.zero_le reached) before, List.append_assoc,
              List.append_assoc, List.append_assoc]

theorem between_append {source : List Char} {stop middle reached : Nat}
    {first second : List Edit} (front : Placed middle reached first)
    (back : Placed stop middle second) :
    between source stop reached (first ++ second) =
      between source middle reached first ++ between source stop middle second := by
  induction first generalizing reached with
  | nil => exact (stretch_append_between front back).symm
  | cons edit rest ih =>
      rw [List.cons_append, between, between, ih front.2.2, List.append_assoc,
        List.append_assoc, List.append_assoc]

theorem between_of_mem (source : List Char) {stop reached : Nat} {edits : List Edit}
    (placed : Placed stop reached edits) {edit : Edit} (member : edit ∈ edits) :
    ∃ before behind, edits = before ++ edit :: behind ∧
      between source stop reached edits =
        between source edit.start reached before ++ edit.replacement ++
          between source stop edit.stop behind := by
  obtain ⟨before, behind, rfl⟩ := List.append_of_mem member
  obtain ⟨middle, front, within, inside, back⟩ := placed_append.mp placed
  have here : Placed stop edit.start (edit :: behind) := ⟨Nat.le_refl _, inside, back⟩
  refine ⟨before, behind, rfl, ?_⟩
  rw [between_append (front.widen within) here, between, stretch_self, List.nil_append,
    List.append_assoc]

theorem Placed.split_apart {length reached start stop : Nat} {edits : List Edit}
    (placed : Placed length reached edits) (within : reached ≤ start) (upto : stop ≤ length)
    (apart : ∀ edit ∈ edits, edit.stop ≤ start ∨ stop ≤ edit.start) :
    ∃ before behind, edits = before ++ behind ∧ Placed start reached before ∧
      Placed length stop behind := by
  induction edits generalizing reached with
  | nil => exact ⟨[], [], rfl, within, upto⟩
  | cons edit rest ih =>
      obtain ⟨before, inside, later⟩ := placed
      rcases apart edit List.mem_cons_self with inFront | behind
      · obtain ⟨front, back, rfl, frontPlaced, backPlaced⟩ :=
          ih later inFront fun other member => apart other (List.mem_cons_of_mem _ member)
        exact ⟨edit :: front, back, rfl, ⟨before, inside, frontPlaced⟩, backPlaced⟩
      · exact ⟨[], edit :: rest, rfl, within, behind, inside, later⟩

theorem between_of_apart (source : List Char) {length reached start stop : Nat}
    {edits : List Edit} (placed : Placed length reached edits) (within : reached ≤ start)
    (ordered : start ≤ stop) (upto : stop ≤ length)
    (apart : ∀ edit ∈ edits, edit.stop ≤ start ∨ stop ≤ edit.start) :
    ∃ before behind, edits = before ++ behind ∧
      between source length reached edits =
        between source start reached before ++ stretch source start stop ++
          between source length stop behind := by
  obtain ⟨before, behind, rfl, front, back⟩ := placed.split_apart within upto apart
  refine ⟨before, behind, rfl, ?_⟩
  rw [between_append front (back.from_le ordered), ← stretch_append_between ordered back,
    List.append_assoc]

theorem applyEdits_eq_between {source : List Char} {edits : List Edit}
    (fits : ∀ edit ∈ edits, edit.Fits (byteLength source)) :
    (applyEdits source edits).1 = between source (byteLength source) 0 (kept edits) := by
  rw [applyEdits, perform_eq_between (placed_kept fits), takeBytes_zero, List.nil_append]

end ComponentSurvey.Edit
