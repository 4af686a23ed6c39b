import ComponentSurvey.Syntax.Lexical

/-!
# Where lexical forms end

A comment of one line and a name take in of the text behind them whatever can continue
them.  Each is read as it stands exactly if the text behind it begins with something else.
-/

namespace ComponentSurvey.Syntax

open Text

theorem splitCount_append {front : List Char} (present : front ≠ []) (back : List Char) :
    splitCount front.length (front ++ back) = some (front, back) := by
  rw [splitCount, if_neg (mt List.length_eq_zero_iff.mp present), List.take_left',
    List.drop_left'] <;> rfl

/-- A match is as long as was counted unless the text is shorter. -/
theorem length_of_splitCount {count : Nat} {text passed rest : List Char}
    (matched : splitCount count text = some (passed, rest)) :
    passed.length = min count text.length := by
  rw [splitCount] at matched
  split at matched
  · cases matched
  · cases matched
    exact List.length_take

theorem scanComment_line {body : List Char}
    (inLine : ∀ c ∈ body, isLineTerminator c = false) (after : List Char) :
    scanComment ('/' :: '/' :: (body ++ after)) =
      some ('/' :: '/' :: (body ++ after.takeWhile fun c => !isLineTerminator c),
        after.dropWhile fun c => !isLineTerminator c) := by
  have whole : '/' :: '/' :: (body ++ after) =
      ('/' :: '/' :: (body ++ after.takeWhile fun c => !isLineTerminator c)) ++
        after.dropWhile fun c => !isLineTerminator c := by
    simp
  have length : 2 + ((body ++ after).takeWhile fun c => !isLineTerminator c).length =
      ('/' :: '/' :: (body ++ after.takeWhile fun c => !isLineTerminator c)).length := by
    rw [List.takeWhile_append_of_pos (by simpa using inLine)]
    simp only [List.length_append, List.length_cons]
    omega
  rw [scanComment, length, whole, splitCount_append (by simp)]

theorem scanComment_line_eq_iff {body : List Char}
    (inLine : ∀ c ∈ body, isLineTerminator c = false) (after : List Char) :
    scanComment ('/' :: '/' :: (body ++ after)) = some ('/' :: '/' :: body, after) ↔
      after.head?.all isLineTerminator = true := by
  rw [scanComment_line inLine]
  cases after with
  | nil => simp
  | cons c rest => cases h : isLineTerminator c <;> simp [h]

theorem isNameChar_of_isMarkupNameChar {c : Char} (ascii : isMarkupNameChar c = true) :
    isNameChar c = true := by
  have small : c.toNat < 128 := by
    simp only [isMarkupNameChar, isAsciiLetter, isDigit, Bool.or_eq_true, Bool.and_eq_true,
      decide_eq_true_eq, Char.le_def, UInt32.le_iff_toNat_le] at ascii
    rcases ascii with (((⟨_, high⟩ | ⟨_, high⟩) | ⟨_, high⟩) | rfl) | rfl
    · exact Nat.lt_of_le_of_lt high (by decide)
    · exact Nat.lt_of_le_of_lt high (by decide)
    · exact Nat.lt_of_le_of_lt high (by decide)
    · decide
    · decide
  have table : ∀ n < 128, isMarkupNameChar (Char.ofNat n) = true →
      isNameChar (Char.ofNat n) = true := by decide
  rw [← Char.ofNat_toNat c] at ascii ⊢
  exact table c.toNat small ascii

theorem nameLength_append {name : List Char} (plain : ∀ c ∈ name, isNameChar c = true)
    (fuel : Nat) (after : List Char) :
    nameLength (name.length + fuel) false (name ++ after) =
      name.length + nameLength fuel false after := by
  induction name with
  | nil => simp
  | cons c rest ih =>
      have continues : isNameChar c = true := plain c List.mem_cons_self
      have unescaped : c ≠ '\\' := by
        rintro rfl
        exact absurd continues (by decide)
      have later := ih fun d inRest => plain d (List.mem_cons_of_mem _ inRest)
      rw [List.length_cons, Nat.add_right_comm, List.cons_append, nameLength]
      · simp [continues, later]
        omega
      · intro more same
        exact absurd same unescaped

def continuesName (text : List Char) : Bool :=
  text.head? = some '-' || nameLength (text.length + 1) false text ≠ 0

theorem nameLength_cons_append {c : Char} {rest : List Char} (starts : isDigit c = false)
    (plain : ∀ d ∈ c :: rest, isMarkupNameChar d = true) (after : List Char) :
    nameLength ((c :: rest ++ after).length + 1) true (c :: rest ++ after) =
      (c :: rest).length + nameLength (after.length + 1) false after := by
  have opens : isNameChar c = true :=
    isNameChar_of_isMarkupNameChar (plain c List.mem_cons_self)
  have unescaped : c ≠ '\\' := by
    rintro rfl
    exact absurd opens (by decide)
  have continues : ∀ d ∈ rest, isNameChar d = true := fun d inRest =>
    isNameChar_of_isMarkupNameChar (plain d (List.mem_cons_of_mem _ inRest))
  have later := nameLength_append continues (after.length + 1) after
  rw [List.cons_append, nameLength]
  · simp only [isNameStart, opens, starts, List.length_cons, List.length_append]
    rw [Nat.add_assoc, later]
    simp
    omega
  · intro more same
    exact absurd same unescaped

theorem nameLength_markupNameChar {c : Char} (isName : isMarkupNameChar c = true)
    (rest : List Char) :
    nameLength ((c :: rest).length + 1) false (c :: rest) =
      1 + nameLength (rest.length + 1) false rest := by
  have continues : ∀ d ∈ [c], isNameChar d = true := by
    simpa using isNameChar_of_isMarkupNameChar isName
  have counted := nameLength_append continues (rest.length + 1) rest
  rwa [List.length_singleton, Nat.add_comm 1 (rest.length + 1), List.singleton_append] at counted

theorem takeWhile_markupName {name : List Char}
    (plain : ∀ d ∈ name, isMarkupNameChar d = true) {after : List Char}
    (ended : after.head?.all (fun c => !isMarkupNameChar c) = true) :
    (name ++ after).takeWhile isMarkupNameChar = name := by
  rw [List.takeWhile_append_of_pos plain]
  cases after with
  | nil => simp
  | cons c rest =>
      have stops : isMarkupNameChar c = false := by simpa using ended
      simp [stops]

theorem scanMarkupName_of_ended {c : Char} {rest : List Char} (starts : isDigit c = false)
    (plain : ∀ d ∈ c :: rest, isMarkupNameChar d = true) {after : List Char}
    (ended : continuesName after = false) :
    scanMarkupName (c :: rest ++ after) = some (c :: rest, after) := by
  have lengths := nameLength_cons_append starts plain after
  simp only [continuesName, Bool.or_eq_false_iff, decide_eq_false_iff_not, ne_eq,
    Decidable.not_not] at ended
  obtain ⟨noHyphen, noName⟩ := ended
  have stops : after.head?.all (fun c => !isMarkupNameChar c) = true := by
    cases after with
    | nil => rfl
    | cons d more =>
        cases isName : isMarkupNameChar d with
        | false => simp [isName]
        | true =>
            rw [nameLength_markupNameChar isName] at noName
            omega
  rw [scanMarkupName, takeWhile_markupName plain stops, lengths, noName, List.drop_left,
    Nat.add_zero]
  split
  · exact absurd rfl noHyphen
  · rw [Nat.zero_max, splitCount_append (by simp)]

/-- A name is read whole and alone exactly if the text behind it does not go on in it. -/
theorem scanMarkupName_eq_iff {c : Char} {rest : List Char} (starts : isDigit c = false)
    (plain : ∀ d ∈ c :: rest, isMarkupNameChar d = true) (after : List Char) :
    scanMarkupName (c :: rest ++ after) = some (c :: rest, after) ↔
      continuesName after = false := by
  refine ⟨fun scanned => ?_, scanMarkupName_of_ended starts plain⟩
  have lengths := nameLength_cons_append starts plain after
  cases after with
  | nil => rfl
  | cons d more =>
      -- Either length the scanner weighs would reach beyond the name.
      rw [Bool.eq_false_iff]
      intro continues
      simp only [continuesName, Bool.or_eq_true, decide_eq_true_eq, List.head?_cons,
        Option.some.injEq] at continues
      have short := length_of_splitCount scanned
      rw [lengths, List.length_append] at short
      rcases continues with rfl | positive
      · rw [takeWhile_markupName plain rfl, List.drop_left] at short
        simp [starts] at short
      · simp only [List.length_cons] at short positive
        omega

end ComponentSurvey.Syntax
