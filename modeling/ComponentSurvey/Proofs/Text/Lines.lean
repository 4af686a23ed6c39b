import ComponentSurvey.Proofs.Text.Runs
import Mathlib.Data.Prod.Lex

/-!
# Lines and columns

Each character moves a position on, a newline to the next line and every other character along its
line.  So a later boundary has a later position, and from its position on the text reads as it does
from the boundary.
-/

namespace ComponentSurvey.Text

def pass (position : Nat × Nat) (c : Char) : Nat × Nat :=
  if c = '\n' then (position.1 + 1, 0) else (position.1, position.2 + c.utf8Size)

theorem advance_append (front back : List Char) (position : Nat × Nat) :
    advance (front ++ back) (byteLength front) position = front.foldl pass position := by
  induction front generalizing position with
  | nil => cases back <;> rfl
  | cons c rest ih =>
      have positive := c.utf8Size_pos
      rw [List.cons_append, advance, byteLength_cons, if_neg (by omega), List.foldl_cons, ← ih,
        pass]
      split
      · rename_i newline
        have single : c.utf8Size = 1 := newline ▸ rfl
        rw [single, Nat.add_sub_cancel_left]
      · rw [if_neg (by omega), Nat.add_sub_cancel_left]

theorem lineColumn_append (front back : List Char) :
    lineColumn (front ++ back) (byteLength front) = front.foldl pass (1, 0) :=
  advance_append front back (1, 0)

theorem lineColumn_eq {text : List Char} {offset : Nat} (boundary : IsBoundary text offset) :
    lineColumn text offset = (takeBytes offset text).foldl pass (1, 0) := by
  obtain ⟨front, back, rfl, rfl⟩ := boundary
  rw [lineColumn_append, takeBytes_byteLength]

theorem lt_pass (position : Nat × Nat) (c : Char) : toLex position < toLex (pass position c) := by
  have positive := c.utf8Size_pos
  rw [Prod.Lex.toLex_lt_toLex, pass]
  split
  · exact .inl (Nat.lt_succ_self _)
  · exact .inr ⟨rfl, Nat.lt_add_of_pos_right positive⟩

theorem le_foldl_pass (text : List Char) (position : Nat × Nat) :
    toLex position ≤ toLex (text.foldl pass position) := by
  induction text generalizing position with
  | nil => exact le_refl _
  | cons c rest ih => exact (lt_pass position c).le.trans (ih _)

theorem line_le_foldl_pass (text : List Char) (position : Nat × Nat) :
    position.1 ≤ (text.foldl pass position).1 := by
  rcases Prod.Lex.toLex_le_toLex.mp (le_foldl_pass text position) with less | ⟨same, -⟩
  · exact less.le
  · exact same.le

theorem foldl_pass_of_oneLine {text : List Char} (oneLine : '\n' ∉ text) (position : Nat × Nat) :
    text.foldl pass position = (position.1, position.2 + byteLength text) := by
  induction text generalizing position with
  | nil => rfl
  | cons c rest ih =>
      obtain ⟨other, later⟩ := not_or.mp (mt List.mem_cons.mpr oneLine)
      rw [List.foldl_cons, pass, if_neg fun newline => other newline.symm, ih later,
        byteLength_cons, Nat.add_assoc]

/-- Where the column begins is forgotten with the first newline. -/
theorem foldl_pass_column (text : List Char) (line : Nat) {column other : Nat} {drift : ℤ}
    (moved : (other : ℤ) = column + drift) :
    (text.foldl pass (line, other)).1 = (text.foldl pass (line, column)).1 ∧
      ((text.foldl pass (line, other)).2 : ℤ) = (text.foldl pass (line, column)).2 +
        if (text.foldl pass (line, column)).1 = line then drift else 0 := by
  induction text generalizing line column other with
  | nil => simpa using moved
  | cons c rest ih =>
      by_cases newline : c = '\n'
      · have below := line_le_foldl_pass rest (line + 1, 0)
        have left : (rest.foldl pass (line + 1, 0)).1 ≠ line := by omega
        simp [pass, newline, left]
      · have further : ((other + c.utf8Size : Nat) : ℤ) = (column + c.utf8Size : Nat) + drift := by
          push_cast
          omega
        simpa [pass, newline] using ih line further

theorem lineColumn_lt_of_lt {text : List Char} {first second : Nat}
    (firstBoundary : IsBoundary text first) (secondBoundary : IsBoundary text second)
    (before : first < second) :
    toLex (lineColumn text first) < toLex (lineColumn text second) := by
  obtain ⟨front, back, whole, rfl⟩ := firstBoundary
  obtain ⟨longer, rest, same, rfl⟩ := secondBoundary
  obtain ⟨middle, rfl, -⟩ := exists_middle (whole.symm.trans same) before.le
  cases middle with
  | nil =>
      rw [List.append_nil] at before
      exact absurd before (Nat.lt_irrefl _)
  | cons c middle =>
      have firstAt : lineColumn text (byteLength front) = front.foldl pass (1, 0) :=
        whole ▸ lineColumn_append front back
      have secondAt : lineColumn text (byteLength (front ++ c :: middle)) =
          middle.foldl pass (pass (front.foldl pass (1, 0)) c) := by
        rw [same, lineColumn_append, List.foldl_append, List.foldl_cons]
      rw [firstAt, secondAt]
      exact (lt_pass _ c).trans_le (le_foldl_pass middle _)

def textFromLine : Nat → List Char → List Char
  | 0, text => text
  | skipped + 1, text => textFromLine skipped ((text.dropWhile fun c => c ≠ '\n').drop 1)

/-- The text from a line, counted from one, and a byte column on. -/
def textAt (text : List Char) (position : Nat × Nat) : List Char :=
  dropBytes position.2 (textFromLine (position.1 - 1) text)

theorem dropBytes_textFromLine (front back part : List Char)
    (onLine : ∀ c ∈ part, c ≠ '\n') (line : Nat) :
    let position := front.foldl pass (line, byteLength part)
    dropBytes position.2 (textFromLine (position.1 - line) (part ++ (front ++ back))) = back := by
  induction front generalizing part line with
  | nil => simp [textFromLine]
  | cons c rest ih =>
      by_cases newline : c = '\n'
      · have below : line + 1 ≤ (rest.foldl pass (line + 1, 0)).1  :=
          line_le_foldl_pass rest (line + 1, 0)
        have step : pass (line, byteLength part) c = (line + 1, 0) := if_pos newline
        have skipped : (part ++ (c :: rest ++ back)).dropWhile (fun c => c ≠ '\n') =
            '\n' :: (rest ++ back) := by
          rw [List.dropWhile_append_of_pos (by simpa using onLine)]
          simp [newline]
        obtain ⟨more, same⟩ := Nat.exists_eq_add_of_le below
        have reads := ih [] (by simp) (line + 1)
        rw [byteLength_nil] at reads
        dsimp only at reads ⊢
        rw [List.foldl_cons, step]
        rw [same] at reads ⊢
        rw [show line + 1 + more - line = more + 1 by omega, textFromLine, skipped]
        rwa [Nat.add_sub_cancel_left] at reads
      · have step : pass (line, byteLength part) c = (line, byteLength (part ++ [c])) := by
          simp [pass, newline]
        have reads := ih (part ++ [c]) (by simpa [newline, or_imp, forall_and] using onLine) line
        rw [List.append_assoc, List.singleton_append] at reads
        rw [List.foldl_cons, step]
        exact reads

theorem textAt_lineColumn {text : List Char} {offset : Nat} (boundary : IsBoundary text offset) :
    textAt text (lineColumn text offset) = dropBytes offset text := by
  obtain ⟨front, back, rfl, rfl⟩ := boundary
  rw [lineColumn_append, dropBytes_byteLength]
  exact dropBytes_textFromLine front back [] (by simp) 1

end ComponentSurvey.Text
