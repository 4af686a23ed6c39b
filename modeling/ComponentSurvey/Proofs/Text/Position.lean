import ComponentSurvey.Text.Position
import Mathlib.Data.List.DropRight

/-!
# Byte offsets between characters

The byte length of a front part is the offset at which the rest begins.
-/

namespace ComponentSurvey.Text

@[simp] theorem takeBytes_byteLength (front back : List Char) :
    takeBytes (byteLength front) (front ++ back) = front := by
  induction front with
  | nil => simp
  | cons c rest ih =>
      have positive := c.utf8Size_pos
      rw [List.cons_append, takeBytes, byteLength_cons, if_neg (by omega),
        Nat.add_sub_cancel_left, ih]

@[simp] theorem dropBytes_byteLength (front back : List Char) :
    dropBytes (byteLength front) (front ++ back) = back := by
  induction front with
  | nil => simp
  | cons c rest ih =>
      have positive := c.utf8Size_pos
      rw [List.cons_append, dropBytes, byteLength_cons, if_neg (by omega),
        Nat.add_sub_cancel_left, ih]

@[simp] theorem byteLength_reverse (text : List Char) :
    byteLength text.reverse = byteLength text := by
  induction text with
  | nil => rfl
  | cons c rest ih => simp [ih, Nat.add_comm]

theorem byteLength_eq_of_takeBytes_eq {text front : List Char} {last : Char}
    {count : Nat} (single : last.utf8Size = 1) (within : count ≤ byteLength text)
    (taken : takeBytes count text = front ++ [last]) :
    byteLength (front ++ [last]) = count := by
  induction text generalizing count front with
  | nil => simp [takeBytes] at taken
  | cons c rest ih =>
      rw [takeBytes] at taken
      split at taken
      · simp at taken
      · rename_i positive
        rw [byteLength_cons] at within
        cases front with
        | nil =>
            obtain ⟨rfl, ended⟩ := List.cons.inj taken
            cases rest with
            | nil =>
                simp only [byteLength_nil] at within
                simp only [List.nil_append, byteLength_cons, byteLength_nil]
                omega
            | cons d more =>
                rw [takeBytes] at ended
                split at ended
                · simp only [List.nil_append, byteLength_cons, byteLength_nil]
                  omega
                · cases ended
        | cons d more =>
            obtain ⟨rfl, later⟩ := List.cons.inj taken
            have ends := ih (by omega) later
            have positiveLast : 0 < byteLength (more ++ [last]) := by
              rw [byteLength_append, byteLength_cons]
              omega
            rw [List.cons_append, byteLength_cons, ends]
            omega

/-- Going back from an offset over blanks of one byte each leads to where the text
before them ends. -/
theorem takeBytes_sub_rtakeWhile {isSingle : Char → Bool}
    (single : ∀ c, isSingle c = true → c.utf8Size = 1) {text : List Char}
    {count : Nat} (within : count ≤ byteLength text) :
    takeBytes (count - byteLength ((takeBytes count text).rtakeWhile isSingle)) text =
      (takeBytes count text).rdropWhile isSingle := by
  generalize split : takeBytes count text = before
  have whole : before ++ dropBytes count text = text :=
    split ▸ takeBytes_append_dropBytes count text
  rcases List.eq_nil_or_concat' before with rfl | ⟨front, last, rfl⟩
  · simpa using split
  · by_cases isLast : isSingle last = true
    · have ends := byteLength_eq_of_takeBytes_eq (single last isLast) within split
      generalize front ++ [last] = before at *
      have parts := List.rdropWhile_append_rtakeWhile (p := isSingle) (l := before)
      have lengths := congrArg byteLength parts
      rw [byteLength_append, ends] at lengths
      have shorter : count - byteLength (before.rtakeWhile isSingle) =
          byteLength (before.rdropWhile isSingle) := by
        omega
      rw [← parts, List.append_assoc] at whole
      rw [shorter, ← whole, takeBytes_byteLength]
    · rw [List.rtakeWhile_concat_neg _ _ _ isLast,
        List.rdropWhile_concat_neg _ _ _ isLast, byteLength_nil, Nat.sub_zero, split]

/-- The characters that begin at or after one offset and before another. -/
def stretch (text : List Char) (start stop : Nat) : List Char :=
  dropBytes start (takeBytes stop text)

theorem stretch_zero (text : List Char) (stop : Nat) : stretch text 0 stop = takeBytes stop text :=
  dropBytes_zero _

theorem stretch_self (text : List Char) (offset : Nat) : stretch text offset offset = [] := by
  rw [stretch]
  induction text generalizing offset with
  | nil => rfl
  | cons c rest ih =>
      rw [takeBytes]
      split
      · rfl
      · rename_i nonzero
        rw [dropBytes, if_neg nonzero, ih]

theorem takeBytes_of_le {text : List Char} {count : Nat} (covers : byteLength text ≤ count) :
    takeBytes count text = text := by
  induction text generalizing count with
  | nil => rfl
  | cons c rest ih =>
      have positive := c.utf8Size_pos
      rw [byteLength_cons] at covers
      rw [takeBytes, if_neg (by omega), ih (by omega)]

theorem byteLength_takeBytes_ge {text : List Char} {count : Nat}
    (within : count ≤ byteLength text) : count ≤ byteLength (takeBytes count text) := by
  induction text generalizing count with
  | nil => exact within
  | cons c rest ih =>
      rw [takeBytes]
      split
      · omega
      · rw [byteLength_cons] at within ⊢
        have later := @ih (count - c.utf8Size) (by omega)
        omega

theorem byteLength_dropBytes_le {text : List Char} {count : Nat}
    (within : count ≤ byteLength text) :
    count + byteLength (dropBytes count text) ≤ byteLength text := by
  have whole := congrArg byteLength (takeBytes_append_dropBytes count text)
  have taken := byteLength_takeBytes_ge within
  rw [byteLength_append] at whole
  omega

theorem takeBytes_append {front : List Char} {count : Nat} (within : count ≤ byteLength front)
    (back : List Char) : takeBytes count (front ++ back) = takeBytes count front := by
  induction front generalizing count with
  | nil =>
      obtain rfl : count = 0 := by simpa using within
      simp
  | cons c rest ih =>
      rw [byteLength_cons] at within
      rw [List.cons_append, takeBytes, takeBytes, ih (by omega)]

theorem takeBytes_takeBytes {first second : Nat} (within : first ≤ second) (text : List Char) :
    takeBytes first (takeBytes second text) = takeBytes first text := by
  induction text generalizing first second with
  | nil => rfl
  | cons c rest ih =>
      by_cases zero : first = 0
      · simp [zero]
      · rw [takeBytes, if_neg (by omega), takeBytes, if_neg zero, takeBytes, if_neg zero,
          ih (by omega)]

theorem dropBytes_takeBytes_append {text : List Char} {count : Nat}
    (within : count ≤ byteLength text) (back : List Char) :
    dropBytes count (takeBytes count text ++ back) = back := by
  induction text generalizing count with
  | nil =>
      obtain rfl : count = 0 := by simpa using within
      simp
  | cons c rest ih =>
      rw [byteLength_cons] at within
      rw [takeBytes]
      split
      · rename_i zero
        simp [zero]
      · rename_i nonzero
        rw [List.cons_append, dropBytes, if_neg nonzero, ih (by omega)]

theorem stretch_append {start middle stop : Nat} (before : start ≤ middle) (behind : middle ≤ stop)
    (text : List Char) :
    stretch text start middle ++ stretch text middle stop = stretch text start stop := by
  induction text generalizing start middle stop with
  | nil => rfl
  | cons c rest ih =>
      have later := @ih (start - c.utf8Size) (middle - c.utf8Size) (stop - c.utf8Size)
        (by omega) (by omega)
      by_cases ended : middle = 0
      · obtain rfl : start = 0 := by omega
        simp [stretch, ended]
      · -- the first character stands before the middle, so only the front may hold it
        have going : stop ≠ 0 := by omega
        by_cases fresh : start = 0
        · simpa [stretch, takeBytes, dropBytes, ended, going, fresh] using later
        · simpa [stretch, takeBytes, dropBytes, ended, going, fresh] using later

def IsBoundary (text : List Char) (offset : Nat) : Prop :=
  ∃ front back, text = front ++ back ∧ byteLength front = offset

theorem isBoundary_iff {text : List Char} {offset : Nat} :
    IsBoundary text offset ↔ byteLength (takeBytes offset text) = offset := by
  constructor
  · rintro ⟨front, back, rfl, rfl⟩
    rw [takeBytes_byteLength]
  · intro ends
    exact ⟨takeBytes offset text, dropBytes offset text,
      (takeBytes_append_dropBytes offset text).symm, ends⟩

instance (text : List Char) (offset : Nat) : Decidable (IsBoundary text offset) :=
  decidable_of_iff _ isBoundary_iff.symm

theorem isBoundary_zero (text : List Char) : IsBoundary text 0 := ⟨[], text, rfl, rfl⟩

theorem IsBoundary.le_byteLength {text : List Char} {offset : Nat}
    (boundary : IsBoundary text offset) : offset ≤ byteLength text := by
  obtain ⟨front, back, rfl, rfl⟩ := boundary
  rw [byteLength_append]
  exact Nat.le_add_right _ _

theorem append_inj_of_byteLength {first second back rest : List Char}
    (lengths : byteLength first = byteLength second) (whole : first ++ back = second ++ rest) :
    first = second ∧ back = rest := by
  have fronts := congrArg (takeBytes (byteLength first)) whole
  have backs := congrArg (dropBytes (byteLength first)) whole
  rw [takeBytes_byteLength, lengths, takeBytes_byteLength] at fronts
  rw [dropBytes_byteLength, lengths, dropBytes_byteLength] at backs
  exact ⟨fronts, backs⟩

theorem byteLength_stretch {text : List Char} {start stop : Nat}
    (ordered : start ≤ stop) (starts : IsBoundary text start) (stops : IsBoundary text stop) :
    start + byteLength (stretch text start stop) = stop := by
  rw [isBoundary_iff] at starts stops
  have parts := congrArg byteLength (stretch_append (Nat.zero_le start) ordered text)
  rw [stretch_zero, stretch_zero, byteLength_append, starts, stops] at parts
  exact parts

end ComponentSurvey.Text
