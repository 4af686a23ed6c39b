import ComponentSurvey.Proofs.Migration.RenameTurns

/-!
# Where renames are reported

A change names the position that its name has in the text that the rename meets.  The text that was
passed in has the name there only if the renames before it have not moved it along its line, and it
need not read what the change says stood there: the equals sign is put behind the name unseen.
-/

namespace ComponentSurvey

open Syntax Text

/-- From the position of the change on, the text reads what the change says stood there. -/
def Change.isReadIn (source : List Char) (change : Change) : Bool :=
  change.position.any fun position =>
    change.before.any fun before => before.toList.isPrefixOf (textAt source position)

namespace AttributeRename

variable {rename : AttributeRename} {code : List Char} {span : Span}

theorem Spells.dropBytes_start {name : List Char} (spells : Spells code name span) :
    dropBytes span.start code = name ++ dropBytes span.stop code := by
  obtain ⟨front, back, rfl, length, stop⟩ := spells
  have behind := dropBytes_byteLength (front ++ name) back
  rw [List.append_assoc, byteLength_append, length, ← stop] at behind
  rw [behind, ← length, dropBytes_byteLength]

theorem Spells.prefix_textAt {name : List Char} (spells : Spells code name span) :
    name <+: textAt code (lineColumn code span.start) := by
  rw [textAt_lineColumn spells.starts, spells.dropBytes_start]
  exact List.prefix_append _ _

theorem isReadIn_change_iff (spells : Spells code rename.old.toList span) :
    (rename.change code span).isReadIn code = true ↔
      (dropBytes span.stop code).head? = some '=' := by
  have before : (rename.change code span).before = some (rename.old ++ "=") := rfl
  rw [Change.isReadIn, before, change, Option.any_some, Option.any_some,
    textAt_lineColumn spells.starts, spells.dropBytes_start, String.toList_append,
    List.isPrefixOf_iff_prefix, List.prefix_append_right_inj, List.head?_eq_some_iff]
  exact exists_congr fun rest => eq_comm

structure IsOneLine (rename : AttributeRename) : Prop where
  old : '\n' ∉ rename.old.toList
  new : '\n' ∉ rename.new.toList

theorem IsOneLine.onOneLine (oneLine : rename.IsOneLine)
    (spells : Spells code rename.old.toList span) : (rename.edit code span).OnOneLine code := by
  refine ⟨?_, oneLine.new⟩
  obtain ⟨front, back, rfl, length, stop⟩ := spells
  have read := slice_middle front rename.old.toList back
  rw [length, ← stop] at read
  rw [edit, read]
  exact oneLine.old

end AttributeRename

namespace RenameTurn

/-- No name that is replaced holds the offset, or what becomes of it, in its middle. -/
def Spares : List RenameTurn → Nat → Prop
  | [], _ => True
  | turn :: rest, offset =>
    Edit.Apart turn.edits offset ∧ Spares rest (Edit.moved turn.edits offset)

def moved : List RenameTurn → Nat → Nat
  | [], offset => offset
  | turn :: rest, offset => moved rest (Edit.moved turn.edits offset)

/-- How far they move the column of an offset: for each of them, what the names that it replaces add
to the line in front of the offset. -/
def drift : List RenameTurn → Nat → ℤ
  | [], _ => 0
  | turn :: rest, offset =>
    Edit.drift turn.met turn.edits offset + drift rest (Edit.moved turn.edits offset)

theorem Replaces.lineColumn_moved {turn : RenameTurn} (replaces : turn.Replaces)
    (oneLine : turn.rename.IsOneLine) {offset : Nat} (boundary : IsBoundary turn.met offset)
    (apart : Edit.Apart turn.edits offset) :
    IsBoundary turn.left (Edit.moved turn.edits offset) ∧
      (lineColumn turn.left (Edit.moved turn.edits offset)).1 = (lineColumn turn.met offset).1 ∧
      ((lineColumn turn.left (Edit.moved turn.edits offset)).2 : ℤ) =
        (lineColumn turn.met offset).2 + Edit.drift turn.met turn.edits offset := by
  have short : ∀ edit ∈ turn.edits, edit.OnOneLine turn.met := List.forall_mem_map.mpr
    fun span member => oneLine.onOneLine (replaces.spells span member)
  rw [replaces.left_eq]
  exact ⟨Edit.isBoundary_moved replaces.placed boundary apart replaces.whole,
    Edit.lineColumn_moved replaces.placed boundary apart replaces.whole short⟩

theorem Linked.lineColumn_moved {first last : List Char} {turns : List RenameTurn}
    (linked : Linked first turns last) (replace : ∀ turn ∈ turns, turn.Replaces)
    (oneLine : ∀ turn ∈ turns, turn.rename.IsOneLine) {offset : Nat}
    (boundary : IsBoundary first offset) (spares : Spares turns offset) :
    (lineColumn last (moved turns offset)).1 = (lineColumn first offset).1 ∧
      ((lineColumn last (moved turns offset)).2 : ℤ) =
        (lineColumn first offset).2 + drift turns offset := by
  induction turns generalizing first offset with
  | nil =>
      obtain rfl : first = last := linked
      simp [moved, drift]
  | cons turn rest ih =>
      obtain ⟨here, others⟩ := List.forall_mem_cons.mp replace
      obtain ⟨short, alsoShort⟩ := List.forall_mem_cons.mp oneLine
      obtain ⟨rfl, later⟩ := linked
      obtain ⟨apart, spared⟩ := spares
      obtain ⟨reaches, line, column⟩ := here.lineColumn_moved short boundary apart
      obtain ⟨sameLine, sameColumn⟩ := ih later others alsoShort reaches spared
      refine ⟨sameLine.trans line, ?_⟩
      rw [moved, drift]
      omega

theorem linked_append {first last : List Char} {earlier later : List RenameTurn}
    (linked : Linked first (earlier ++ later) last) :
    ∃ middle, Linked first earlier middle ∧ Linked middle later last := by
  induction earlier generalizing first with
  | nil => exact ⟨first, rfl, linked⟩
  | cons turn rest ih =>
      obtain ⟨met, remaining⟩ := linked
      obtain ⟨middle, front, back⟩ := ih remaining
      exact ⟨middle, ⟨met, front⟩, back⟩

section Reported

variable {path : String} {source : List Char} {renames : List AttributeRename}
  {earlier later : List RenameTurn} {turn : RenameTurn}
  (run : ofRenames path source renames = earlier ++ turn :: later) {span : Span}
  (found : span ∈ turn.spans)
include run found

/-- In the text that its rename meets, a change names the position of the old name. -/
theorem old_prefix_textAt :
    (turn.rename.change turn.met span).position = some (lineColumn turn.met span.start) ∧
      turn.rename.old.toList <+: textAt turn.met (lineColumn turn.met span.start) := by
  have member : turn ∈ ofRenames path source renames := by simp [run]
  obtain ⟨code, rename, -, rfl⟩ := exists_of_mem_ofRenames member
  exact ⟨rfl, ((replaces_ofText path code rename).spells span found).prefix_textAt⟩

/--
A change whose name stood at some offset of the text passed in, before the renames before it moved
it, names the line of that offset.  It names its column exactly if those renames have added nothing
to the line in front of it.
-/
theorem position_eq_iff (oneLine : ∀ rename ∈ renames, rename.IsOneLine) {offset : Nat}
    (boundary : IsBoundary source offset) (spares : Spares earlier offset)
    (stands : moved earlier offset = span.start) :
    (lineColumn turn.met span.start).1 = (lineColumn source offset).1 ∧
      ((turn.rename.change turn.met span).position = some (lineColumn source offset) ↔
        drift earlier offset = 0) := by
  have linked := (foldl_renameStep path renames (source, [])).1
  have replace : ∀ turn ∈ earlier, turn.Replaces ∧ turn.rename.IsOneLine := by
    intro turn member
    obtain ⟨code, rename, listed, rfl⟩ :=
      exists_of_mem_ofRenames (run ▸ List.mem_append_left _ member)
    exact ⟨replaces_ofText path code rename, oneLine rename listed⟩
  obtain ⟨middle, front, met, -⟩ := linked_append (run ▸ linked)
  obtain ⟨line, column⟩ := front.lineColumn_moved (fun turn member => (replace turn member).1)
    (fun turn member => (replace turn member).2) boundary spares
  rw [stands, ← met] at line column
  dsimp only at line column
  refine ⟨line, ?_⟩
  rw [(old_prefix_textAt run found).1, Option.some.injEq, Prod.ext_iff, and_iff_right line]
  omega

end Reported

def cellEvents : List AttributeRename :=
  [⟨"onRowClick", "onRowSelect"⟩, ⟨"onCellClick", "onCellSelect"⟩]

def rowAndCell : List Char :=
  "const g = <ArchbaseDataGrid onRowClick=\x7bh\x7d onCellClick=\x7bc\x7d />;\n".toList

-- the second name stands at column 43, behind the character that the first rename has added
theorem rowAndCell_misplaced :
    (Document.ofComponentFile? "Grid.tsx" rowAndCell).isSome = true ∧
      "onCellClick".toList.isPrefixOf (textAt rowAndCell (1, 43)) = true ∧
      (applyRenames cellEvents "Grid.tsx" rowAndCell).changes.map Change.position =
        [some (1, 28), some (1, 44)] ∧
      (applyRenames cellEvents "Grid.tsx" rowAndCell).changes.map (Change.isReadIn rowAndCell) =
        [true, false] := by
  decide +kernel

end RenameTurn

end ComponentSurvey
