import ComponentSurvey.Proofs.Text.Position
import ComponentSurvey.Text.CharClass

/-!
# Characters at offsets

A run of characters in front of an offset or behind it reaches up to the first character that does
not belong to it.
-/

namespace ComponentSurvey.Text

/-- Of two ways to split a text the shorter front begins the longer one. -/
theorem exists_middle {first second back rest : List Char}
    (whole : first ++ back = second ++ rest) (shorter : byteLength first ≤ byteLength second) :
    ∃ middle, second = first ++ middle ∧ back = middle ++ rest := by
  rcases List.append_eq_append_iff.mp whole with found | ⟨extra, rfl, rfl⟩
  · exact found
  · have empty : byteLength extra = 0 := by
      rw [byteLength_append] at shorter
      omega
    cases extra with
    | nil => exact ⟨[], by simp, by simp⟩
    | cons c extra =>
        have positive := c.utf8Size_pos
        rw [byteLength_cons] at empty
        omega

theorem slice_middle (front middle back : List Char) :
    slice (front ++ (middle ++ back)) (byteLength front) (byteLength front + byteLength middle) =
      middle := by
  rw [slice, dropBytes_byteLength, Nat.add_sub_cancel_left, takeBytes_byteLength]

theorem IsBoundary.exists_parts {text : List Char} {start stop : Nat}
    (starts : IsBoundary text start) (stops : IsBoundary text stop) (ordered : start ≤ stop) :
    ∃ front back, text = front ++ (slice text start stop ++ back) ∧ byteLength front = start ∧
      start + byteLength (slice text start stop) = stop := by
  obtain ⟨front, rest, whole, rfl⟩ := starts
  obtain ⟨longer, back, same, rfl⟩ := stops
  obtain ⟨middle, rfl, rfl⟩ := exists_middle (whole.symm.trans same) ordered
  have read : slice text (byteLength front) (byteLength (front ++ middle)) = middle := by
    rw [whole, byteLength_append, slice_middle]
  rw [read]
  exact ⟨front, back, whole, rfl, (byteLength_append _ _).symm⟩

theorem stretch_eq_slice {text : List Char} {start stop : Nat} (starts : IsBoundary text start)
    (stops : IsBoundary text stop) (ordered : start ≤ stop) :
    stretch text start stop = slice text start stop := by
  obtain ⟨front, back, whole, length, reaches⟩ := starts.exists_parts stops ordered
  generalize slice text start stop = middle at *
  rw [stretch, whole, ← reaches, ← length, ← byteLength_append, ← List.append_assoc,
    takeBytes_byteLength, dropBytes_byteLength]

theorem slice_infix {text : List Char} {low start stop high : Nat} (lowest : IsBoundary text low)
    (starts : IsBoundary text start) (stops : IsBoundary text stop) (highest : IsBoundary text high)
    (before : low ≤ start) (ordered : start ≤ stop) (behind : stop ≤ high) :
    slice text start stop <:+: slice text low high := by
  obtain ⟨outer, rest, whole, outerLength, reaches⟩ :=
    lowest.exists_parts highest (before.trans (ordered.trans behind))
  obtain ⟨inner, back, same, innerLength, ends⟩ := starts.exists_parts stops ordered
  generalize slice text low high = around at *
  generalize slice text start stop = inside at *
  obtain ⟨gap, rfl, split⟩ := exists_middle (whole.symm.trans same) (by omega)
  rw [byteLength_append] at innerLength
  have wider : byteLength (gap ++ inside) ≤ byteLength around := by
    rw [byteLength_append]
    omega
  obtain ⟨last, parts, -⟩ :=
    exists_middle ((List.append_assoc _ _ _).trans split.symm) wider
  exact ⟨gap, last, parts.symm⟩

theorem slice_append {text : List Char} {start middle stop : Nat} (starts : IsBoundary text start)
    (between : IsBoundary text middle) (stops : IsBoundary text stop) (before : start ≤ middle)
    (behind : middle ≤ stop) :
    slice text start middle ++ slice text middle stop = slice text start stop := by
  obtain ⟨front, rest, whole, length, reaches⟩ := starts.exists_parts between before
  obtain ⟨longer, back, same, longerLength, ends⟩ := between.exists_parts stops behind
  obtain ⟨outer, last, all, outerLength, covers⟩ := starts.exists_parts stops (before.trans behind)
  obtain ⟨rfl, split⟩ :=
    append_inj_of_byteLength (outerLength.trans length.symm) (all.symm.trans whole)
  rw [← List.append_assoc] at whole
  obtain ⟨-, joined⟩ := append_inj_of_byteLength
    (by rw [byteLength_append]; omega) (whole.symm.trans same)
  rw [joined, ← List.append_assoc] at split
  exact (append_inj_of_byteLength (by rw [byteLength_append]; omega) split).1.symm

def CharAt (text : List Char) (offset : Nat) (c : Char) : Prop :=
  ∃ front back, text = front ++ c :: back ∧ byteLength front = offset

namespace CharAt

variable {text : List Char} {offset other : Nat} {c : Char}

theorem lt_byteLength (there : CharAt text offset c) : offset < byteLength text := by
  obtain ⟨front, back, rfl, rfl⟩ := there
  have positive := c.utf8Size_pos
  rw [byteLength_append, byteLength_cons]
  omega

/-- A boundary behind the beginning of a character is not before its end. -/
theorem next_le (there : CharAt text offset c) (boundary : IsBoundary text other)
    (before : offset < other) : offset + c.utf8Size ≤ other := by
  obtain ⟨front, back, whole, rfl⟩ := there
  obtain ⟨longer, rest, same, rfl⟩ := boundary
  obtain ⟨middle, rfl, split⟩ := exists_middle (whole.symm.trans same) before.le
  cases middle with
  | nil =>
      rw [List.append_nil] at before
      omega
  | cons d middle =>
      obtain ⟨rfl, -⟩ := List.cons.inj split
      rw [byteLength_append, byteLength_cons]
      omega

theorem slice_between {last : Nat} (opens : CharAt text offset c) (closes : CharAt text last c)
    (apart : offset + c.utf8Size ≤ last) :
    ∃ content, slice text offset (last + c.utf8Size) = c :: content ++ [c] := by
  obtain ⟨front, rest, whole, rfl⟩ := opens
  obtain ⟨longer, back, same, rfl⟩ := closes
  have wholeAfter : (front ++ [c]) ++ rest = longer ++ c :: back := by
    rw [List.append_assoc, ← same, whole]
    rfl
  obtain ⟨content, rfl, -⟩ := exists_middle wholeAfter (by simpa using apart)
  refine ⟨content, ?_⟩
  have split : text = front ++ ((c :: content ++ [c]) ++ back) := by simp [same]
  rw [split]
  convert slice_middle _ _ _ using 2
  simp
  omega

theorem mem_of_parts {front middle back : List Char}
    (there : CharAt (front ++ (middle ++ back)) offset c) (starts : byteLength front ≤ offset)
    (stops : offset < byteLength front + byteLength middle) : c ∈ middle := by
  obtain ⟨before, behind, whole, rfl⟩ := there
  obtain ⟨inner, rfl, split⟩ := exists_middle whole starts
  rw [byteLength_append] at stops
  obtain ⟨last, rfl, found⟩ := exists_middle split.symm (by omega)
  cases last with
  | nil =>
      rw [List.append_nil] at stops
      omega
  | cons d last =>
      obtain ⟨rfl, -⟩ := List.cons.inj found
      exact List.mem_append_right _ List.mem_cons_self

end CharAt

theorem exists_charAt_of_mem {text : List Char} {start stop : Nat} (starts : IsBoundary text start)
    (stops : IsBoundary text stop) (ordered : start ≤ stop) {c : Char}
    (member : c ∈ slice text start stop) :
    ∃ place, start ≤ place ∧ place < stop ∧ CharAt text place c := by
  obtain ⟨front, back, whole, length, reaches⟩ := starts.exists_parts stops ordered
  obtain ⟨before, behind, read⟩ := List.append_of_mem member
  have positive := c.utf8Size_pos
  rw [read, byteLength_append, byteLength_cons] at reaches
  refine ⟨start + byteLength before, by omega, by omega, front ++ before, behind ++ back, ?_, ?_⟩
  · rw [whole, read]
    simp
  · rw [byteLength_append, length]

variable {text : List Char} {offset place : Nat} {c : Char}

/-- The characters in front of an offset that have a property are those from some offset on. -/
theorem run_before (boundary : IsBoundary text offset) (isInside : Char → Bool) :
    ∃ front run back, text = front ++ (run ++ back) ∧
      byteLength front + byteLength run = offset ∧
      run.reverse = (takeBytes offset text).reverse.takeWhile isInside := by
  obtain ⟨before, back, rfl, rfl⟩ := boundary
  rw [takeBytes_byteLength]
  refine ⟨before.rdropWhile isInside, before.rtakeWhile isInside, back, ?_, ?_, ?_⟩
  · rw [← List.append_assoc, List.rdropWhile_append_rtakeWhile]
  · rw [← byteLength_append, List.rdropWhile_append_rtakeWhile]
  · rw [List.rtakeWhile, List.reverse_reverse]

theorem isBoundary_before {text : List Char} {offset : Nat} (boundary : IsBoundary text offset)
    (isInside : Char → Bool) :
    IsBoundary text (offset - byteLength ((takeBytes offset text).reverse.takeWhile isInside)) := by
  obtain ⟨front, run, back, whole, length, same⟩ := run_before boundary isInside
  rw [← same, byteLength_reverse]
  exact ⟨front, run ++ back, whole, by omega⟩

theorem CharAt.mem_before (there : CharAt text place c) (boundary : IsBoundary text offset)
    {isInside : Char → Bool}
    (starts : offset - byteLength ((takeBytes offset text).reverse.takeWhile isInside) ≤ place)
    (stops : place < offset) : c ∈ (takeBytes offset text).reverse.takeWhile isInside := by
  obtain ⟨front, run, back, whole, length, same⟩ := run_before boundary isInside
  rw [← same, byteLength_reverse] at starts
  rw [← same, List.mem_reverse]
  exact (whole ▸ there).mem_of_parts (by omega) (by omega)

theorem isBoundary_behind (boundary : IsBoundary text offset) {run : List Char}
    (ahead : run <+: dropBytes offset text) : IsBoundary text (offset + byteLength run) := by
  obtain ⟨front, rest, rfl, rfl⟩ := boundary
  rw [dropBytes_byteLength] at ahead
  obtain ⟨back, rfl⟩ := ahead
  exact ⟨front ++ run, back, by simp, by simp⟩

theorem CharAt.mem_behind (there : CharAt text place c) (boundary : IsBoundary text offset)
    {run : List Char} (ahead : run <+: dropBytes offset text) (starts : offset ≤ place)
    (stops : place < offset + byteLength run) : c ∈ run := by
  obtain ⟨front, rest, rfl, rfl⟩ := boundary
  rw [dropBytes_byteLength] at ahead
  obtain ⟨back, rfl⟩ := ahead
  exact there.mem_of_parts starts stops

def isTrimmed (text : List Char) : Bool :=
  text.head?.any (fun c => !isBlank c) && text.getLast?.any (fun c => !isBlank c)

variable {start stop : Nat}

theorem exists_first (starts : IsBoundary text start) (stops : IsBoundary text stop)
    (ordered : start ≤ stop) (trimmed : isTrimmed (slice text start stop) = true) :
    ∃ c, isBlank c = false ∧ start < stop ∧ CharAt text start c := by
  obtain ⟨front, back, whole, length, reaches⟩ := starts.exists_parts stops ordered
  obtain ⟨c, first, solid⟩ := (Option.any_eq_true _ _).mp (Bool.and_eq_true_iff.mp trimmed).1
  obtain ⟨rest, read⟩ := List.head?_eq_some_iff.mp first
  have positive := c.utf8Size_pos
  rw [read, byteLength_cons] at reaches
  exact ⟨c, by simpa using solid, by omega, front, rest ++ back, by rw [whole, read]; rfl, length⟩

theorem exists_last (starts : IsBoundary text start) (stops : IsBoundary text stop)
    (ordered : start ≤ stop) (trimmed : isTrimmed (slice text start stop) = true) :
    ∃ place c, isBlank c = false ∧ start ≤ place ∧ place + c.utf8Size = stop ∧
      CharAt text place c := by
  obtain ⟨front, back, whole, length, reaches⟩ := starts.exists_parts stops ordered
  obtain ⟨c, last, solid⟩ := (Option.any_eq_true _ _).mp (Bool.and_eq_true_iff.mp trimmed).2
  obtain ⟨others, read⟩ := List.getLast?_eq_some_iff.mp last
  rw [read, byteLength_append, byteLength_cons, byteLength_nil] at reaches
  refine ⟨start + byteLength others, c, by simpa using solid, by omega, by omega,
    front ++ others, back, ?_, ?_⟩
  · rw [whole, read]
    simp
  · rw [byteLength_append, length]

end ComponentSurvey.Text
