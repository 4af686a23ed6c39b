import ComponentSurvey.Proofs.Migration.Substitution
import ComponentSurvey.Proofs.Text.Lines
import Mathlib.Algebra.Ring.Int.Defs

/-!
# What edits move

Behind an edit the text moves by as many bytes as the edit adds.  As long as no newline is replaced
or put in, lines keep their numbers, and a column moves by what the edits on its line add in front
of it.
-/

namespace ComponentSurvey.Edit

open Text

def growth (edit : Edit) : ℤ := byteLength edit.replacement - (edit.stop - edit.start : ℤ)

theorem Substituted.byteLength_eq {offset : Nat} {text result : List Char} {edits : List Edit}
    (substituted : Substituted offset text edits result) :
    (byteLength result : ℤ) = byteLength text + (edits.map growth).sum := by
  induction substituted with
  | done => simp
  | @next offset gap span text result edit edits starts stops later ih =>
      simp only [byteLength_append, List.map_cons, List.sum_cons, growth]
      push_cast
      omega

/-- The edit neither takes a newline away nor brings one. -/
structure OnOneLine (source : List Char) (edit : Edit) : Prop where
  old : '\n' ∉ slice source edit.start edit.stop
  new : '\n' ∉ edit.replacement

def startsOn (source : List Char) (line : Nat) (edit : Edit) : Bool :=
  (lineColumn source edit.start).1 = line

/-- What the edits that start on a line add to it. -/
def lineGrowth (source : List Char) (line : Nat) (edits : List Edit) : ℤ :=
  ((edits.filter (startsOn source line)).map growth).sum

theorem lineGrowth_cons (source : List Char) (line : Nat) (edit : Edit) (edits : List Edit) :
    lineGrowth source line (edit :: edits) =
      (if (lineColumn source edit.start).1 = line then edit.growth else 0) +
        lineGrowth source line edits := by
  rw [lineGrowth, List.filter_cons, startsOn]
  split <;> simp_all [lineGrowth]

/-- The second position is so many columns further along the line of the first one. -/
structure Drifted (drift : ℤ) (first second : Nat × Nat) : Prop where
  line : second.1 = first.1
  column : (second.2 : ℤ) = first.2 + drift

section Drifted

variable {drift : ℤ} {first second : Nat × Nat} (drifted : Drifted drift first second)

include drifted

theorem Drifted.over_gap (gap : List Char) :
    Drifted (if (gap.foldl pass first).1 = first.1 then drift else 0) (gap.foldl pass first)
      (gap.foldl pass second) := by
  obtain ⟨_, reached⟩ := first
  obtain ⟨row, shifted⟩ := second
  obtain ⟨rfl, moved⟩ := drifted
  obtain ⟨sameLine, further⟩ := foldl_pass_column gap row moved
  exact ⟨sameLine, further⟩

theorem Drifted.over_edit {edit : Edit} {span : List Char}
    (stops : edit.start + byteLength span = edit.stop) (old : '\n' ∉ span)
    (new : '\n' ∉ edit.replacement) :
    Drifted (drift + edit.growth) (span.foldl pass first)
      (edit.replacement.foldl pass second) := by
  rw [foldl_pass_of_oneLine old, foldl_pass_of_oneLine new]
  refine ⟨drifted.line, ?_⟩
  have further := drifted.column
  rw [growth]
  push_cast
  omega

end Drifted

/-- Of the drift before a gap and of what is added behind it, that counts on a later line which
came about on this line. -/
theorem drift_over_lines {first middle last : Nat} (before : first ≤ middle)
    (after : middle ≤ last) (drift added : ℤ) :
    (if last = middle then (if middle = first then drift else 0) + added else 0) =
      (if last = first then drift else 0) + if middle = last then added else 0 := by
  split_ifs <;> omega

theorem lineColumn_and_slice {source before span back : List Char} {edit : Edit}
    (whole : source = before ++ (span ++ back)) (starts : byteLength before = edit.start)
    (stops : edit.start + byteLength span = edit.stop) :
    lineColumn source edit.start = before.foldl pass (1, 0) ∧
      slice source edit.start edit.stop = span := by
  rw [whole, ← stops, ← starts, lineColumn_append, slice_middle]
  exact ⟨rfl, rfl⟩

/-- Where a text ends, and where the substituted text ends if it begins with some drift. -/
theorem Substituted.drifted {source front text back result : List Char} {offset : Nat}
    {edits : List Edit} (substituted : Substituted offset text edits result)
    (whole : source = front ++ (text ++ back)) (length : byteLength front = offset)
    (oneLine : ∀ edit ∈ edits, edit.OnOneLine source) {start shifted : Nat × Nat} {drift : ℤ}
    (starts : front.foldl pass (1, 0) = start) (drifted : Drifted drift start shifted) :
    Drifted
      ((if (text.foldl pass start).1 = start.1 then drift else 0) +
        lineGrowth source (text.foldl pass start).1 edits)
      (text.foldl pass start) (result.foldl pass shifted) := by
  induction substituted generalizing front start shifted drift with
  | done offset text => simpa [lineGrowth] using drifted.over_gap text
  | @next offset gap span text result edit edits gapEnds spanEnds later ih =>
      obtain ⟨here, others⟩ := List.forall_mem_cons.mp oneLine
      have reached : byteLength (front ++ gap) = edit.start := by
        rw [byteLength_append, length, gapEnds]
      have split : source = front ++ gap ++ (span ++ (text ++ back)) := by simp [whole]
      obtain ⟨edited, replaced⟩ := lineColumn_and_slice split reached spanEnds
      rw [List.foldl_append, starts] at edited
      have old : '\n' ∉ span := replaced ▸ here.old
      have behindEdit := (drifted.over_gap gap).over_edit spanEnds old here.new
      have restarts : (front ++ gap ++ span).foldl pass (1, 0) =
          span.foldl pass (gap.foldl pass start) := by
        rw [List.foldl_append, List.foldl_append, starts]
      have ends := ih (by simp [whole])
        (by rw [byteLength_append, reached, spanEnds]) others restarts behindEdit
      have sameLine : (span.foldl pass (gap.foldl pass start)).1 = (gap.foldl pass start).1 := by
        rw [foldl_pass_of_oneLine old]
      have beyond := line_le_foldl_pass text (span.foldl pass (gap.foldl pass start))
      rw [sameLine] at ends beyond
      rw [drift_over_lines (line_le_foldl_pass gap start) beyond] at ends
      simpa only [List.foldl_append, lineGrowth_cons, edited, add_assoc] using ends

def inFront (edits : List Edit) (offset : Nat) : List Edit :=
  edits.takeWhile fun edit => edit.stop ≤ offset

def behind (edits : List Edit) (offset : Nat) : List Edit :=
  edits.dropWhile fun edit => edit.stop ≤ offset

theorem inFront_append_behind (edits : List Edit) (offset : Nat) :
    inFront edits offset ++ behind edits offset = edits :=
  List.takeWhile_append_dropWhile

theorem stop_le_of_mem_inFront {edits : List Edit} {offset : Nat} {edit : Edit}
    (member : edit ∈ inFront edits offset) : edit.stop ≤ offset :=
  of_decide_eq_true <|
    List.mem_takeWhile_imp (p := fun edit : Edit => decide (edit.stop ≤ offset)) member

theorem mem_of_mem_inFront {edits : List Edit} {offset : Nat} {edit : Edit}
    (member : edit ∈ inFront edits offset) : edit ∈ edits :=
  (List.takeWhile_prefix _).subset member

def moved (edits : List Edit) (offset : Nat) : Nat :=
  (offset + ((inFront edits offset).map growth).sum).toNat

def drift (source : List Char) (edits : List Edit) (offset : Nat) : ℤ :=
  lineGrowth source (lineColumn source offset).1 (inFront edits offset)

def Apart (edits : List Edit) (offset : Nat) : Prop :=
  ∀ edit ∈ edits, edit.stop ≤ offset ∨ offset ≤ edit.start

theorem Placed.narrow {stop reached limit : Nat} {edits : List Edit}
    (placed : Placed stop reached edits) (ends : ∀ edit ∈ edits, edit.stop ≤ limit)
    (within : reached ≤ limit) : Placed limit reached edits := by
  induction edits generalizing reached with
  | nil => exact within
  | cons edit rest ih =>
      obtain ⟨here, others⟩ := List.forall_mem_cons.mp ends
      exact ⟨placed.1, placed.2.1, ih placed.2.2 others here⟩

section Offsets

variable {source : List Char} {edits : List Edit} {offset : Nat}
  (placed : Placed (byteLength source) 0 edits)

include placed

theorem placed_inFront (offset : Nat) : Placed offset 0 (inFront edits offset) := by
  rw [← inFront_append_behind edits offset] at placed
  obtain ⟨_, front, -⟩ := placed_append.mp placed
  exact front.narrow (fun _ => stop_le_of_mem_inFront) (Nat.zero_le offset)

theorem placed_behind {stop : Nat} (upto : stop ≤ byteLength source)
    (apart : ∀ edit ∈ edits, edit.stop ≤ offset ∨ stop ≤ edit.start) :
    Placed (byteLength source) stop (behind edits offset) := by
  rw [← inFront_append_behind edits offset] at placed
  obtain ⟨middle, -, back⟩ := placed_append.mp placed
  cases left : behind edits offset with
  | nil => exact upto
  | cons edit rest =>
      have goesOn := List.head?_dropWhile_not (fun edit : Edit => edit.stop ≤ offset) edits
      rw [← behind, left] at goesOn
      have member : edit ∈ edits := (List.dropWhile_suffix _).subset (left ▸ List.mem_cons_self)
      rw [left] at back
      exact ⟨(apart edit member).resolve_left (of_decide_eq_false goesOn), back.2⟩

theorem exists_behind_eq_cons {edit : Edit} (member : edit ∈ edits)
    (covers : edit.start < edit.stop) : ∃ rest, behind edits edit.start = edit :: rest := by
  obtain ⟨front, rest, rfl⟩ := List.append_of_mem member
  have ends : ∀ other ∈ front, decide (other.stop ≤ edit.start) = true := fun other earlier =>
    decide_eq_true ((List.pairwise_append.mp placed.pairwise).2.2 other earlier edit
      List.mem_cons_self).2
  refine ⟨rest, ?_⟩
  rw [behind, List.dropWhile_append_of_pos ends, List.dropWhile_cons_of_neg (by simpa using covers)]

variable (boundary : IsBoundary source offset) (apart : Apart edits offset)

include boundary apart

/-- What stands in front of the offset and what stands behind it are edited on their own. -/
theorem perform_eq_append :
    perform source edits = between source offset 0 (inFront edits offset) ++
      between source (byteLength source) offset (behind edits offset) := by
  rw [perform_eq_between placed, takeBytes_zero, List.nil_append,
    ← between_append (placed_inFront placed offset)
      (placed_behind placed boundary.le_byteLength apart), inFront_append_behind]

variable (spans : ∀ edit ∈ edits, edit.Spans source)

include spans

theorem exists_moved :
    ∃ front, perform source edits =
        front ++ between source (byteLength source) offset (behind edits offset) ∧
      byteLength front = moved edits offset ∧
      Substituted 0 (takeBytes offset source) (inFront edits offset) front := by
  have whole : ∀ edit ∈ inFront edits offset, edit.Spans source :=
    fun edit member => spans edit (mem_of_mem_inFront member)
  have substituted :=
    substituted_between whole (isBoundary_zero source) (placed_inFront placed offset)
  have length := substituted.byteLength_eq
  rw [stretch_zero, isBoundary_iff.mp boundary] at length
  rw [stretch_zero] at substituted
  refine ⟨_, perform_eq_append placed boundary apart, ?_, substituted⟩
  rw [moved, ← length, Int.toNat_natCast]

theorem isBoundary_moved : IsBoundary (perform source edits) (moved edits offset) := by
  obtain ⟨front, performed, length, -⟩ := exists_moved placed boundary apart spans
  exact ⟨front, _, performed, length⟩

/-- A boundary between the edits keeps its line, and its column moves by the drift. -/
theorem lineColumn_moved (oneLine : ∀ edit ∈ edits, edit.OnOneLine source) :
    (lineColumn (perform source edits) (moved edits offset)).1 = (lineColumn source offset).1 ∧
      ((lineColumn (perform source edits) (moved edits offset)).2 : ℤ) =
        (lineColumn source offset).2 + drift source edits offset := by
  obtain ⟨front, performed, length, substituted⟩ := exists_moved placed boundary apart spans
  have whole : source = [] ++ (takeBytes offset source ++ dropBytes offset source) :=
    (takeBytes_append_dropBytes offset source).symm
  have within : ∀ edit ∈ inFront edits offset, edit.OnOneLine source :=
    fun edit member => oneLine edit (mem_of_mem_inFront member)
  have begins : Drifted 0 (1, 0) (1, 0) := ⟨rfl, by simp⟩
  have ends := substituted.drifted whole rfl within rfl begins
  rw [ite_self, zero_add, List.foldl_nil, ← lineColumn_eq boundary] at ends
  rw [performed, ← length, lineColumn_append]
  exact ⟨ends.line, ends.column⟩

end Offsets

section Reads

variable {source : List Char} {edits : List Edit} (placed : Placed (byteLength source) 0 edits)
  (spans : ∀ edit ∈ edits, edit.Spans source)

include placed spans

theorem exists_copied {start stop : Nat} (starts : IsBoundary source start)
    (stops : IsBoundary source stop) (ordered : start ≤ stop)
    (apart : ∀ edit ∈ edits, edit.stop ≤ start ∨ stop ≤ edit.start) :
    ∃ front back, perform source edits = front ++ (slice source start stop ++ back) ∧
      byteLength front = moved edits start := by
  have spared : Apart edits start :=
    fun edit member => (apart edit member).imp_right ordered.trans
  obtain ⟨front, performed, length, -⟩ := exists_moved placed starts spared spans
  refine ⟨front, between source (byteLength source) stop (behind edits start), ?_, length⟩
  rw [performed, ← stretch_eq_slice starts stops ordered,
    stretch_append_between ordered (placed_behind placed stops.le_byteLength apart)]

theorem exists_replaced {edit : Edit} (member : edit ∈ edits) (covers : edit.start < edit.stop)
    (apart : Apart edits edit.start) :
    ∃ front back, perform source edits = front ++ (edit.replacement ++ back) ∧
      byteLength front = moved edits edit.start := by
  obtain ⟨front, performed, length, -⟩ := exists_moved placed (spans edit member).starts apart spans
  obtain ⟨rest, first⟩ := exists_behind_eq_cons placed member covers
  refine ⟨front, between source (byteLength source) edit.stop rest, ?_, length⟩
  rw [performed, first, between, stretch_self, List.nil_append]

end Reads

end ComponentSurvey.Edit
