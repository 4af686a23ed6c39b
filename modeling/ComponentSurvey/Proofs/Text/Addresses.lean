import ComponentSurvey.Order.Total
import ComponentSurvey.Text.Position
import Mathlib.Data.List.Induction
import Mathlib.Data.Prod.Lex

/-!
# Positions as addresses

The rows in front of a position, each with its newline, and its column add up to one offset, and
positions that stand in another order lead to offsets in that order.  So `lineColumn` finds the one
position that leads to an offset, also inside a character, and later offsets have later positions.
-/

namespace ComponentSurvey.Text

def bytes (text : List Char) : List UInt8 := text.flatMap String.utf8EncodeChar

theorem length_bytes (text : List Char) : (bytes text).length = byteLength text := by
  induction text with
  | nil => rfl
  | cons c rest ih =>
      unfold bytes at ih ⊢
      simp [ih]

theorem newline_notMem_utf8EncodeChar {c : Char} (other : c ≠ '\n') :
    10 ∉ String.utf8EncodeChar c := by
  have code : c.val.toNat ≠ 10 := fun same =>
    other (Char.ext (UInt32.toNat_inj.mp same))
  have byte (value : Nat) : (10 : UInt8) = UInt8.ofNat value ↔ value % 256 = 10 := by
    rw [← UInt8.toNat_inj, UInt8.toNat_ofNat', eq_comm]
    rfl
  unfold String.utf8EncodeChar
  dsimp only
  split
  · simp only [List.mem_singleton, byte]
    omega
  · split
    · simp only [List.mem_cons, List.not_mem_nil, or_false, byte]
      omega
    · split <;> simp only [List.mem_cons, List.not_mem_nil, or_false, byte] <;> omega

def passByte (position : Nat × Nat) (byte : UInt8) : Nat × Nat :=
  if byte = 10 then (position.1 + 1, 0) else (position.1, position.2 + 1)

theorem foldl_passByte_of_oneRow {row : List UInt8} (oneRow : 10 ∉ row) (position : Nat × Nat) :
    row.foldl passByte position = (position.1, position.2 + row.length) := by
  induction row generalizing position with
  | nil => rfl
  | cons byte rest ih =>
      obtain ⟨other, later⟩ := not_or.mp (mt List.mem_cons.mpr oneRow)
      rw [List.foldl_cons, ih later, passByte, if_neg fun newline => other newline.symm,
        List.length_cons, Nat.add_right_comm, Nat.add_assoc]

theorem advance_eq_foldl (text : List Char) (count : Nat) (position : Nat × Nat) :
    advance text count position = ((bytes text).take count).foldl passByte position := by
  induction text generalizing count position with
  | nil => simp [bytes, advance]
  | cons c rest ih =>
      have front : bytes (c :: rest) = String.utf8EncodeChar c ++ bytes rest := by simp [bytes]
      rw [front, List.take_append, List.foldl_append, String.length_utf8EncodeChar, advance]
      split
      · rename_i none
        simp [none]
      · split
        · rename_i some newline
          subst newline
          have encoded : (String.utf8EncodeChar '\n').take count = [10] :=
            List.take_of_length_le (by change 1 ≤ count; omega)
          rw [ih, encoded]
          rfl
        · rename_i some other
          have oneRow := newline_notMem_utf8EncodeChar other
          rw [foldl_passByte_of_oneRow fun member => oneRow (List.mem_of_mem_take member),
            List.length_take, String.length_utf8EncodeChar]
          split
          · rename_i inside
            rw [Nat.min_eq_left inside.le, Nat.sub_eq_zero_of_le inside.le]
            rfl
          · rename_i passed
            rw [ih, Nat.min_eq_right (by omega)]

/-- The line counts the newlines in front, the column the bytes behind the last of them. -/
theorem lineColumn_eq_counts (text : List Char) (offset : Nat) :
    lineColumn text offset =
      (((bytes text).take offset).count 10 + 1,
        (((bytes text).take offset).reverse.takeWhile (· ≠ 10)).length) := by
  rw [lineColumn, advance_eq_foldl]
  generalize (bytes text).take offset = front
  induction front using List.reverseRecOn with
  | nil => rfl
  | append_singleton front byte ih =>
      rw [List.foldl_append, ih, List.foldl_cons, List.foldl_nil, passByte]
      split
      · rename_i newline
        simp [newline]
      · rename_i other
        simp [other]

theorem lineColumn_of_le {text : List Char} {offset : Nat} (covers : byteLength text ≤ offset) :
    lineColumn text offset = lineColumn text (byteLength text) := by
  rw [← length_bytes] at *
  rw [lineColumn_eq_counts, lineColumn_eq_counts, List.take_of_length_le covers, List.take_length]

def rows (text : List Char) : List (List Char) := text.splitOn '\n'

/-- The length of the first rows, each with the newline behind it. -/
def rowStart (text : List Char) (skipped : Nat) : Nat :=
  Order.total (fun row => byteLength row + 1) ((rows text).take skipped)

/-- The position is on a row of the text, not behind its end, and leads to the offset. -/
structure Addresses (text : List Char) (position : Nat × Nat) (offset : Nat) : Prop where
  counted : 1 ≤ position.1
  onRow : ∃ row, (rows text)[position.1 - 1]? = some row ∧ position.2 ≤ byteLength row
  leads : rowStart text (position.1 - 1) + position.2 = offset

@[simp] theorem rowStart_zero (text : List Char) : rowStart text 0 = 0 := by simp [rowStart]

theorem rows_newline (rest : List Char) : rows ('\n' :: rest) = [] :: rows rest := by
  simp [rows, List.splitOn_cons_eq_if_modifyHead]

theorem exists_rows (text : List Char) : ∃ first others, rows text = first :: others :=
  List.exists_cons_of_ne_nil (List.splitOn_ne_nil _ _)

theorem rows_cons {c : Char} {rest first : List Char} {others : List (List Char)}
    (other : c ≠ '\n') (split : rows rest = first :: others) :
    rows (c :: rest) = (c :: first) :: others := by
  unfold rows at split ⊢
  simp [List.splitOn_cons_eq_if_modifyHead, other, split]

theorem rowStart_succ {text row : List Char} {skipped : Nat}
    (there : (rows text)[skipped]? = some row) :
    rowStart text (skipped + 1) = rowStart text skipped + (byteLength row + 1) := by
  simp [rowStart, List.take_add_one, there]

theorem rowStart_mono (text : List Char) : Monotone (rowStart text) := by
  apply monotone_nat_of_le_succ
  intro skipped
  simp [rowStart, List.take_add_one]

theorem rowStart_newline (rest : List Char) (skipped : Nat) :
    rowStart ('\n' :: rest) (skipped + 1) = rowStart rest skipped + 1 := by
  simp [rowStart, rows_newline, Nat.add_comm]

theorem rowStart_cons {c : Char} (other : c ≠ '\n') (rest : List Char) (skipped : Nat) :
    rowStart (c :: rest) (skipped + 1) = rowStart rest (skipped + 1) + c.utf8Size := by
  obtain ⟨first, others, split⟩ := exists_rows rest
  simp [rowStart, rows_cons other split, split]
  omega

namespace Addresses

variable {text : List Char} {position other : Nat × Nat} {offset behind : Nat}

theorem offset_lt (here : Addresses text position offset) (there : Addresses text other behind)
    (before : toLex position < toLex other) : offset < behind := by
  have leads := here.leads
  have leadsBehind := there.leads
  rcases Prod.Lex.toLex_lt_toLex.mp before with earlier | ⟨same, shorter⟩
  · obtain ⟨row, onRow, within⟩ := here.onRow
    have counted := here.counted
    have next := rowStart_succ onRow
    have skipped := rowStart_mono text (show position.1 - 1 + 1 ≤ other.1 - 1 by omega)
    omega
  · rw [same] at leads
    omega

theorem unique (here : Addresses text position offset) (there : Addresses text other offset) :
    position = other := by
  rcases lt_trichotomy (toLex position) (toLex other) with before | same | after
  · exact absurd (here.offset_lt there before) (lt_irrefl _)
  · exact same
  · exact absurd (there.offset_lt here after) (lt_irrefl _)

end Addresses

/-- In the first bytes so many rows end, and so many bytes of the next row follow. -/
structure RowsPassed (text : List Char) (count skipped column : Nat) : Prop where
  onRow : ∃ row, (rows text)[skipped]? = some row ∧ column ≤ byteLength row
  sum : rowStart text skipped + column = count

namespace RowsPassed

variable {c : Char} {text rest : List Char} {count skipped column : Nat}

theorem zero (text : List Char) : RowsPassed text 0 0 0 := by
  obtain ⟨first, others, split⟩ := exists_rows text
  exact ⟨⟨first, by rw [split]; rfl, Nat.zero_le _⟩, by simp⟩

theorem inside (other : c ≠ '\n') (rest : List Char) (within : count ≤ c.utf8Size) :
    RowsPassed (c :: rest) count 0 count := by
  obtain ⟨first, others, split⟩ := exists_rows rest
  refine ⟨⟨c :: first, by rw [rows_cons other split]; rfl, ?_⟩, by simp⟩
  rw [byteLength_cons]
  omega

theorem newline (passed : RowsPassed rest count skipped column) :
    RowsPassed ('\n' :: rest) (count + 1) (skipped + 1) column where
  onRow := by
    obtain ⟨row, there, shorter⟩ := passed.onRow
    exact ⟨row, by rwa [rows_newline], shorter⟩
  sum := by
    have sum := passed.sum
    rw [rowStart_newline]
    omega

/-- Only the first row goes on from the character in front of it. -/
theorem cons (other : c ≠ '\n') (passed : RowsPassed rest count skipped column) :
    RowsPassed (c :: rest) (count + c.utf8Size) skipped
      (if skipped = 0 then c.utf8Size + column else column) := by
  obtain ⟨first, others, split⟩ := exists_rows rest
  have whole := rows_cons other split
  obtain ⟨⟨row, there, shorter⟩, sum⟩ := passed
  rw [split] at there
  cases skipped with
  | zero =>
      obtain rfl : first = row := Option.some.inj there
      rw [rowStart_zero] at sum
      refine ⟨⟨c :: first, by rw [whole]; rfl, ?_⟩, ?_⟩
      · rw [if_pos rfl, byteLength_cons]
        omega
      · rw [if_pos rfl, rowStart_zero]
        omega
  | succ skipped =>
      rw [if_neg (Nat.succ_ne_zero _)]
      refine ⟨⟨row, by rwa [whole], shorter⟩, ?_⟩
      rw [rowStart_cons other]
      omega

end RowsPassed

/-- Over the bytes that are passed the column begins anew behind each row that ends. -/
theorem exists_rowsPassed {text : List Char} {count : Nat} (within : count ≤ byteLength text)
    (position : Nat × Nat) :
    ∃ skipped column, RowsPassed text count skipped column ∧
      advance text count position =
        (position.1 + skipped, if skipped = 0 then position.2 + column else column) := by
  induction text generalizing count position with
  | nil =>
      obtain rfl : count = 0 := by simpa using within
      exact ⟨0, 0, .zero [], rfl⟩
  | cons c rest ih =>
      rw [byteLength_cons] at within
      rw [advance]
      split
      · rename_i none
        subst none
        exact ⟨0, 0, .zero _, by simp⟩
      · split
        · rename_i some newline
          subst newline
          have single : '\n'.utf8Size = 1 := rfl
          obtain ⟨skipped, column, passed, ends⟩ :=
            ih (show count - 1 ≤ byteLength rest by omega) (position.1 + 1, 0)
          have sum : count - 1 + 1 = count := by omega
          refine ⟨skipped + 1, column, sum ▸ passed.newline, ?_⟩
          rw [ends]
          simp
          omega
        · rename_i some other
          split
          · rename_i inside
            exact ⟨0, count, .inside other rest inside.le, by simp⟩
          · rename_i behind
            obtain ⟨skipped, column, passed, ends⟩ :=
              ih (show count - c.utf8Size ≤ byteLength rest by omega)
                (position.1, position.2 + c.utf8Size)
            have sum : count - c.utf8Size + c.utf8Size = count := by omega
            refine ⟨skipped, _, sum ▸ passed.cons other, ?_⟩
            rw [ends]
            split <;> simp [Nat.add_assoc]

theorem addresses_lineColumn {text : List Char} {offset : Nat}
    (within : offset ≤ byteLength text) : Addresses text (lineColumn text offset) offset := by
  obtain ⟨skipped, column, ⟨⟨row, onRow, shorter⟩, sum⟩, ends⟩ := exists_rowsPassed within (1, 0)
  have position : lineColumn text offset = (1 + skipped, column) := by
    rw [lineColumn, ends]
    simp
  have behind : 1 + skipped - 1 = skipped := Nat.add_sub_cancel_left _ _
  rw [position]
  exact ⟨Nat.le_add_right _ _, ⟨row, by rwa [behind], shorter⟩, by rwa [behind]⟩

theorem lineColumn_lt_lineColumn {text : List Char} {first second : Nat} (before : first < second)
    (within : second ≤ byteLength text) :
    toLex (lineColumn text first) < toLex (lineColumn text second) := by
  have here := addresses_lineColumn (before.le.trans within)
  have there := addresses_lineColumn within
  rcases lt_trichotomy (toLex (lineColumn text first)) (toLex (lineColumn text second)) with
    earlier | same | later
  · exact earlier
  · have leads := here.leads
    rw [toLex_inj.mp same, there.leads] at leads
    omega
  · exact absurd (there.offset_lt here later) (by omega)

/-- Within the text the position is the only one that leads to the offset, and it grows with the
offset; further offsets have the position of the end. -/
theorem lineColumn_inverse (text : List Char) :
    (∀ offset position, offset ≤ byteLength text →
      (lineColumn text offset = position ↔ Addresses text position offset)) ∧
    (∀ first second, first < second → second ≤ byteLength text →
      toLex (lineColumn text first) < toLex (lineColumn text second)) ∧
    ∀ offset, byteLength text ≤ offset →
      lineColumn text offset = lineColumn text (byteLength text) := by
  refine ⟨fun offset position within => ⟨?_, fun addresses => ?_⟩,
    fun first second before within => lineColumn_lt_lineColumn before within,
    fun offset covers => lineColumn_of_le covers⟩
  · rintro rfl
    exact addresses_lineColumn within
  · exact (addresses_lineColumn within).unique addresses

end ComponentSurvey.Text
