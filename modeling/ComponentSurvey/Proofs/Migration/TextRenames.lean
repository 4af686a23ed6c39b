import ComponentSurvey.Migration.AttributeRename
import ComponentSurvey.Proofs.Text.Position

/-!
# Renaming attributes in plain text

In a text that does not parse, attributes are told by white space in front of them and by the
opening of a value behind.  One pass renames all of them and leaves everything else as it is.
-/

namespace ComponentSurvey.AttributeRename

open Text

/-! ## Attributes -/

def endsName (c : Char) : Bool := isBlank c || c = '=' || opensValue c

structure IsWord (word : List Char) : Prop where
  nonempty : word ≠ []
  inside : ∀ c ∈ word, endsName c = false

-- By `List.any`: the instance for all characters goes through more than those of the word.
instance (word : List Char) : Decidable (IsWord word) :=
  decidable_of_iff (word ≠ [] ∧ word.any endsName = false)
    ⟨fun both => ⟨both.1, by simpa using both.2⟩, fun isWord =>
      ⟨isWord.nonempty, by simpa using isWord.inside⟩⟩

/-- What follows the opening of a value, up to which there is white space only. -/
def opened? (text : List Char) : Option (List Char) :=
  match text.dropWhile isBlank with
  | opener :: after => if opensValue opener then some after else none
  | [] => none

/-- What follows an equals sign and the opening of a value. -/
def value? (text : List Char) : Option (List Char) :=
  match text.dropWhile isBlank with
  | '=' :: value => opened? value
  | _ => none

theorem rest?_eq_some_iff {start text rest : List Char} :
    rest? start text = some rest ↔ text = start ++ rest := by
  rw [rest?]
  constructor
  · intro found
    split at found
    · rename_i isFront
      obtain ⟨behind, rfl⟩ := List.isPrefixOf_iff_prefix.mp isFront
      rw [List.drop_left] at found
      rw [Option.some.inj found]
    · cases found
  · rintro rfl
    rw [if_pos (List.isPrefixOf_iff_prefix.mpr (List.prefix_append _ _)), List.drop_left]

theorem afterAttribute?_cons (name : List Char) (c : Char) (text : List Char) :
    afterAttribute? name (c :: text) =
      if isBlank c then (rest? name text).bind value? else none := by
  rw [afterAttribute?]
  cases isBlank c with
  | false => rfl
  | true =>
      cases rest? name text with
      | none => rfl
      | some tail =>
          simp only [Bool.not_true, Bool.false_eq_true, if_false, if_true, Option.map_some,
            Option.bind_some, value?]
          cases tail.dropWhile isBlank with
          | nil => rfl
          | cons d value =>
              by_cases equals : d = '='
              · rw [equals]
                rfl
              · simp [equals]

theorem afterAttribute?_eq_some_iff {name text after : List Char} :
    afterAttribute? name text = some after ↔
      ∃ c tail, text = c :: (name ++ tail) ∧ isBlank c = true ∧ value? tail = some after := by
  cases text with
  | nil =>
      constructor
      · intro found
        cases found
      · rintro ⟨c, tail, nonempty, -⟩
        cases nonempty
  | cons c text =>
      rw [afterAttribute?_cons, Option.ite_none_right_eq_some, Option.bind_eq_some_iff]
      constructor
      · rintro ⟨blank, tail, found, opens⟩
        exact ⟨c, tail, by rw [rest?_eq_some_iff.mp found], blank, opens⟩
      · rintro ⟨_, tail, same, blank, opens⟩
        obtain ⟨rfl, rfl⟩ := List.cons.inj same
        exact ⟨blank, tail, rest?_eq_some_iff.mpr rfl, opens⟩

theorem isBlank_of_opensValue {c : Char} (opens : opensValue c = true) : isBlank c = false := by
  simp only [opensValue, Bool.or_eq_true, decide_eq_true_eq] at opens
  rcases opens with (rfl | rfl) | rfl <;> rfl

theorem dropWhile_isBlank_eq_cons_iff {text rest : List Char} {c : Char}
    (solid : isBlank c = false) :
    text.dropWhile isBlank = c :: rest ↔
      ∃ blanks : List Char, text = blanks ++ c :: rest ∧ ∀ d ∈ blanks, isBlank d = true := by
  constructor
  · intro found
    refine ⟨text.takeWhile isBlank, ?_, fun d => List.mem_takeWhile_imp⟩
    rw [← found, List.takeWhile_append_dropWhile]
  · rintro ⟨blanks, rfl, areBlank⟩
    rw [List.dropWhile_append_of_pos areBlank, List.dropWhile_cons_of_neg (by simp [solid])]

theorem opened?_eq_some_iff {text after : List Char} :
    opened? text = some after ↔ ∃ (blanks : List Char) (opener : Char),
      text = blanks ++ opener :: after ∧ (∀ c ∈ blanks, isBlank c = true) ∧
        opensValue opener = true := by
  rw [opened?]
  constructor
  · intro found
    split at found
    · rename_i opener behind dropped
      obtain ⟨opens, rfl⟩ : opensValue opener = true ∧ behind = after := by simpa using found
      obtain ⟨blanks, whole, areBlank⟩ :=
        (dropWhile_isBlank_eq_cons_iff (isBlank_of_opensValue opens)).mp dropped
      exact ⟨blanks, opener, whole, areBlank, opens⟩
    · cases found
  · rintro ⟨blanks, opener, whole, areBlank, opens⟩
    rw [(dropWhile_isBlank_eq_cons_iff (isBlank_of_opensValue opens)).mpr ⟨blanks, whole, areBlank⟩]
    exact if_pos opens

theorem value?_eq_some_iff {text after : List Char} :
    value? text = some after ↔ ∃ (gap more : List Char) (opener : Char),
      text = gap ++ '=' :: (more ++ opener :: after) ∧ (∀ c ∈ gap, isBlank c = true) ∧
        (∀ c ∈ more, isBlank c = true) ∧ opensValue opener = true := by
  have solid : isBlank '=' = false := rfl
  rw [value?]
  constructor
  · intro found
    split at found
    · rename_i value dropped
      obtain ⟨gap, rfl, areBlank⟩ := (dropWhile_isBlank_eq_cons_iff solid).mp dropped
      obtain ⟨more, opener, rfl, alsoBlank, opens⟩ := opened?_eq_some_iff.mp found
      exact ⟨gap, more, opener, rfl, areBlank, alsoBlank, opens⟩
    · cases found
  · rintro ⟨gap, more, opener, whole, areBlank, alsoBlank, opens⟩
    rw [(dropWhile_isBlank_eq_cons_iff solid).mpr ⟨gap, whole, areBlank⟩]
    exact opened?_eq_some_iff.mpr ⟨more, opener, rfl, alsoBlank, opens⟩

theorem exists_of_value? {tail after : List Char} (found : value? tail = some after) :
    ∃ (gap : List Char) (opener : Char), tail = gap ++ opener :: after ∧
      opensValue opener = true ∧ ∀ c ∈ gap, endsName c = true := by
  obtain ⟨gap, more, opener, rfl, areBlank, alsoBlank, opens⟩ := value?_eq_some_iff.mp found
  refine ⟨gap ++ '=' :: more, opener, by simp, opens, fun c member => ?_⟩
  rcases List.mem_append.mp member with first | second
  · simp [endsName, areBlank c first]
  · rcases List.mem_cons.mp second with rfl | third
    · rfl
    · simp [endsName, alsoBlank c third]

theorem head_of_value? {tail after : List Char} (found : value? tail = some after) :
    ∃ d rest, tail = d :: rest ∧ endsName d = true := by
  obtain ⟨gap, opener, rfl, opens, ends⟩ := exists_of_value? found
  cases gap with
  | nil => exact ⟨opener, after, rfl, by rw [endsName, opens, Bool.or_true]⟩
  | cons d rest => exact ⟨d, rest ++ opener :: after, rfl, ends d List.mem_cons_self⟩

theorem word_eq_of_append_eq {first second front back : List Char} {c d : Char}
    (firstWord : IsWord first) (secondWord : IsWord second) (endsFirst : endsName c = true)
    (endsSecond : endsName d = true) (same : first ++ c :: front = second ++ d :: back) :
    first = second ∧ c :: front = d :: back := by
  rcases List.append_eq_append_iff.mp same with ⟨more, rfl, tail⟩ | ⟨more, rfl, tail⟩
  · cases more with
    | nil => exact ⟨by simp, by simpa using tail⟩
    | cons e rest =>
        obtain ⟨rfl, -⟩ := List.cons.inj tail
        have inside := secondWord.inside c (by simp)
        rw [endsFirst] at inside
        cases inside
  · cases more with
    | nil => exact ⟨by simp, by simpa using tail.symm⟩
    | cons e rest =>
        obtain ⟨rfl, -⟩ := List.cons.inj tail
        have inside := firstWord.inside d (by simp)
        rw [endsSecond] at inside
        cases inside

/-! ## All attributes of a text -/

def hasAttribute (name : List Char) : List Char → Bool
  | [] => false
  | c :: rest => (afterAttribute? name (c :: rest)).isSome || hasAttribute name rest

/-- The names of all attributes, wherever they begin. -/
def spansFrom (name : List Char) : Nat → List Char → List Span
  | _, [] => []
  | offset, c :: rest =>
    let start := offset + c.utf8Size
    let later := spansFrom name start rest
    if (afterAttribute? name (c :: rest)).isSome then ⟨start, start + byteLength name⟩ :: later
    else later

theorem afterAttribute?_of_not_blank {name rest : List Char} {c : Char}
    (solid : isBlank c = false) : afterAttribute? name (c :: rest) = none := by
  rw [afterAttribute?_cons, solid]
  rfl

theorem afterAttribute?_of_endsName {name rest : List Char} {c d : Char} (word : IsWord name)
    (ends : endsName d = true) : afterAttribute? name (c :: d :: rest) = none := by
  by_contra found
  obtain ⟨after, found⟩ := Option.ne_none_iff_exists'.mp found
  obtain ⟨_, tail, same, -, -⟩ := afterAttribute?_eq_some_iff.mp found
  obtain ⟨-, same⟩ := List.cons.inj same
  obtain ⟨first, others, rfl⟩ := List.exists_cons_of_ne_nil word.nonempty
  obtain ⟨rfl, -⟩ := List.cons.inj same
  have inside := word.inside d List.mem_cons_self
  rw [ends] at inside
  cases inside

theorem isBlank_of_inside {word : List Char} (isWord : IsWord word) {c : Char}
    (member : c ∈ word) : isBlank c = false := by
  have inside := isWord.inside c member
  rw [endsName, Bool.or_assoc, Bool.or_eq_false_iff] at inside
  exact inside.1

section Solid

variable {solid : List Char} (isSolid : ∀ c ∈ solid, isBlank c = false) (name tail : List Char)

include isSolid

theorem spansFrom_append (offset : Nat) :
    spansFrom name offset (solid ++ tail) =
      spansFrom name (offset + byteLength solid) tail := by
  induction solid generalizing offset with
  | nil => rfl
  | cons c rest ih =>
      obtain ⟨here, later⟩ := List.forall_mem_cons.mp isSolid
      rw [List.cons_append, spansFrom, afterAttribute?_of_not_blank here, byteLength_cons,
        ← Nat.add_assoc]
      exact ih later _

theorem hasAttribute_append : hasAttribute name (solid ++ tail) = hasAttribute name tail := by
  induction solid with
  | nil => rfl
  | cons c rest ih =>
      obtain ⟨here, later⟩ := List.forall_mem_cons.mp isSolid
      rw [List.cons_append, hasAttribute, afterAttribute?_of_not_blank here]
      exact ih later

end Solid

theorem spansFrom_gap {name gap after : List Char} {opener : Char} (word : IsWord name)
    (ends : ∀ c ∈ gap, endsName c = true) (opens : opensValue opener = true) (offset : Nat) :
    spansFrom name offset (gap ++ opener :: after) =
      spansFrom name (offset + byteLength (gap ++ [opener])) after := by
  induction gap generalizing offset with
  | nil =>
      have solid : ∀ c ∈ [opener], isBlank c = false :=
        List.forall_mem_singleton.mpr (isBlank_of_opensValue opens)
      exact spansFrom_append solid name after offset
  | cons c rest ih =>
      have none : afterAttribute? name (c :: (rest ++ opener :: after)) = none := by
        cases rest with
        | nil =>
            exact afterAttribute?_of_endsName word (by rw [endsName, opens, Bool.or_true])
        | cons d others =>
            exact afterAttribute?_of_endsName word
              (ends d (List.mem_cons_of_mem _ List.mem_cons_self))
      rw [List.cons_append, spansFrom, none, List.cons_append, byteLength_cons, ← Nat.add_assoc]
      exact ih (fun d member => ends d (List.mem_cons_of_mem _ member)) _

/-- No attribute begins inside another one, so that none is passed over. -/
theorem foundSpans_eq {name : List Char} (word : IsWord name) (offset covered : Nat)
    (text : List Char) :
    foundSpans (afterAttribute? name) (byteLength name) offset covered text =
      spansFrom name (offset + byteLength (text.take covered)) (text.drop covered) := by
  induction text generalizing offset covered with
  | nil => cases covered <;> rfl
  | cons c rest ih =>
      cases covered with
      | succ covered =>
          rw [foundSpans, ih, List.take_succ_cons, List.drop_succ_cons, byteLength_cons,
            Nat.add_assoc]
      | zero =>
          rw [foundSpans, List.take_zero, List.drop_zero, byteLength_nil, Nat.add_zero,
            spansFrom]
          cases found : afterAttribute? name (c :: rest) with
          | none =>
              rw [ih]
              rfl
          | some after =>
              obtain ⟨_, tail, same, -, opens⟩ := afterAttribute?_eq_some_iff.mp found
              obtain ⟨rfl, rfl⟩ := List.cons.inj same
              obtain ⟨gap, opener, rfl, opening, ends⟩ := exists_of_value? opens
              have solid : ∀ c ∈ name, isBlank c = false := fun _ => isBlank_of_inside word
              have split : name ++ (gap ++ opener :: after) =
                  (name ++ (gap ++ [opener])) ++ after := by simp
              have length : (name ++ (gap ++ opener :: after)).length - after.length =
                  (name ++ (gap ++ [opener])).length := by
                rw [split, List.length_append]
                omega
              dsimp only
              rw [ih, length, Option.isSome_some, if_pos rfl, spansFrom_append solid,
                spansFrom_gap word ends opening, split, List.take_left, List.drop_left,
                byteLength_append name]
              simp only [Nat.add_assoc]

theorem textSpans_eq_nil_iff {name text : List Char} (word : IsWord name) :
    textSpans name text = [] ↔ hasAttribute name text = false := by
  have spans (offset : Nat) : spansFrom name offset text = [] ↔
      hasAttribute name text = false := by
    induction text generalizing offset with
    | nil => exact ⟨fun _ => rfl, fun _ => rfl⟩
    | cons c rest ih =>
        rw [spansFrom, hasAttribute, Bool.or_eq_false_iff]
        cases (afterAttribute? name (c :: rest)).isSome with
        | true => simp
        | false => simpa using ih _
  rw [textSpans, foundSpans_eq word]
  exact spans _

/-! ## Renaming -/

def renameText (rename : AttributeRename) : List Char → List Char
  | [] => []
  | c :: rest =>
    if (afterAttribute? rename.old.toList (c :: rest)).isSome then
      c :: (rename.new.toList ++ (renameText rename rest).drop rename.old.toList.length)
    else c :: renameText rename rest

theorem renameText_cons (rename : AttributeRename) (c : Char) (rest : List Char) :
    ∃ others, renameText rename (c :: rest) = c :: others := by
  rw [renameText]
  split <;> exact ⟨_, rfl⟩

variable {rename : AttributeRename}

theorem renameText_append {solid : List Char} (isSolid : ∀ c ∈ solid, isBlank c = false)
    (tail : List Char) : renameText rename (solid ++ tail) = solid ++ renameText rename tail := by
  induction solid with
  | nil => rfl
  | cons c rest ih =>
      obtain ⟨here, later⟩ := List.forall_mem_cons.mp isSolid
      rw [List.cons_append, renameText, afterAttribute?_of_not_blank here, ih later]
      rfl

/-- What is solid in a renamed text has been there before. -/
theorem exists_of_renameText_eq_append {solid text tail : List Char}
    (isSolid : ∀ c ∈ solid, isBlank c = false)
    (same : renameText rename text = solid ++ tail) :
    ∃ before, text = solid ++ before ∧ renameText rename before = tail := by
  induction solid generalizing text with
  | nil => exact ⟨text, rfl, same⟩
  | cons c rest ih =>
      obtain ⟨here, later⟩ := List.forall_mem_cons.mp isSolid
      cases text with
      | nil => cases same
      | cons d text =>
          have isHead : d = c := by
            obtain ⟨others, renamed⟩ := renameText_cons rename d text
            exact (List.cons.inj (renamed.symm.trans same)).1
          rw [isHead, renameText, afterAttribute?_of_not_blank here] at same
          obtain ⟨before, rfl, isTail⟩ := ih later (List.cons.inj same).2
          exact ⟨before, by rw [isHead]; rfl, isTail⟩

theorem replaceRange_middle (front middle back replacement : List Char) :
    replaceRange (front ++ (middle ++ back)) (byteLength front)
        (byteLength front + byteLength middle) replacement = front ++ (replacement ++ back) := by
  rw [replaceRange, takeBytes_byteLength, ← byteLength_append, ← List.append_assoc,
    dropBytes_byteLength, List.append_assoc]

theorem perform_spansFrom (word : IsWord rename.old.toList) (front text : List Char) :
    rename.perform (front ++ text) (spansFrom rename.old.toList (byteLength front) text) =
      front ++ renameText rename text := by
  induction text generalizing front with
  | nil => rfl
  | cons c rest ih =>
      have later := ih (front ++ [c])
      rw [byteLength_append, byteLength_cons, byteLength_nil, Nat.add_zero, List.append_assoc,
        List.singleton_append, List.append_assoc, List.singleton_append] at later
      rw [spansFrom, renameText]
      cases found : afterAttribute? rename.old.toList (c :: rest) with
      | none => exact later
      | some after =>
          obtain ⟨_, tail, same, -, -⟩ := afterAttribute?_eq_some_iff.mp found
          obtain ⟨rfl, rfl⟩ := List.cons.inj same
          have renamed : renameText rename (rename.old.toList ++ tail) =
              rename.old.toList ++ renameText rename tail :=
            renameText_append (fun _ => isBlank_of_inside word) tail
          rw [Option.isSome_some, if_pos rfl, if_pos rfl, perform, List.foldr_cons, ← perform,
            later, renamed, List.drop_left]
          have middle := replaceRange_middle (front ++ [c]) rename.old.toList
            (renameText rename tail) rename.new.toList
          rw [byteLength_append, byteLength_cons, byteLength_nil, Nat.add_zero] at middle
          simpa using middle

theorem perform_textSpans (word : IsWord rename.old.toList) (text : List Char) :
    rename.perform text (textSpans rename.old.toList text) = renameText rename text := by
  rw [textSpans, foundSpans_eq word]
  exact perform_spansFrom word [] text

/-! ## What opens a value -/

theorem opened?_of_blank {c : Char} (blank : isBlank c = true) (rest : List Char) :
    opened? (c :: rest) = opened? rest := by
  rw [opened?, opened?, List.dropWhile_cons_of_pos blank]

theorem opened?_of_solid {c : Char} (solid : isBlank c = false) (rest : List Char) :
    opened? (c :: rest) = if opensValue c then some rest else none := by
  rw [opened?, List.dropWhile_cons_of_neg (by simp [solid])]

theorem value?_of_blank {c : Char} (blank : isBlank c = true) (rest : List Char) :
    value? (c :: rest) = value? rest := by
  rw [value?, value?, List.dropWhile_cons_of_pos blank]

theorem value?_of_solid {c : Char} (solid : isBlank c = false) (rest : List Char) :
    value? (c :: rest) = if c = '=' then opened? rest else none := by
  rw [value?, List.dropWhile_cons_of_neg (by simp [solid])]
  split
  · rename_i equals
    obtain ⟨rfl, rfl⟩ := List.cons.inj equals
    rfl
  · rename_i other
    rw [if_neg]
    rintro rfl
    exact other rest rfl

theorem opened?_word {word : List Char} (isWord : IsWord word) (rest : List Char) :
    opened? (word ++ rest) = none := by
  obtain ⟨c, others, rfl⟩ := List.exists_cons_of_ne_nil isWord.nonempty
  have inside := isWord.inside c List.mem_cons_self
  simp only [endsName, Bool.or_eq_false_iff] at inside
  rw [List.cons_append, opened?_of_solid inside.1.1, inside.2]
  rfl

theorem value?_word {word : List Char} (isWord : IsWord word) (rest : List Char) :
    value? (word ++ rest) = none := by
  obtain ⟨c, others, rfl⟩ := List.exists_cons_of_ne_nil isWord.nonempty
  have inside := isWord.inside c List.mem_cons_self
  simp only [endsName, Bool.or_eq_false_iff, decide_eq_false_iff_not] at inside
  rw [List.cons_append, value?_of_solid inside.1.1, if_neg inside.1.2]

/-! ## What a renamed text holds -/

structure IsProper (rename : AttributeRename) : Prop where
  old : IsWord rename.old.toList
  new : IsWord rename.new.toList

instance (rename : AttributeRename) : Decidable rename.IsProper :=
  decidable_of_iff (IsWord rename.old.toList ∧ IsWord rename.new.toList)
    ⟨fun both => ⟨both.1, both.2⟩, fun proper => ⟨proper.old, proper.new⟩⟩

/-- Renaming begins with white space and a name, or leaves the first character as it is. -/
theorem renameText_cases (proper : rename.IsProper) (c : Char) (rest : List Char) :
    (∃ tail, rest = rename.old.toList ++ tail ∧ isBlank c = true ∧ (value? tail).isSome ∧
      renameText rename (c :: rest) = c :: (rename.new.toList ++ renameText rename tail)) ∨
    (afterAttribute? rename.old.toList (c :: rest) = none ∧
      renameText rename (c :: rest) = c :: renameText rename rest) := by
  rw [renameText]
  cases found : afterAttribute? rename.old.toList (c :: rest) with
  | none => exact .inr ⟨rfl, rfl⟩
  | some after =>
      obtain ⟨_, tail, same, blank, opens⟩ := afterAttribute?_eq_some_iff.mp found
      obtain ⟨rfl, rfl⟩ := List.cons.inj same
      refine .inl ⟨tail, rfl, blank, Option.isSome_iff_exists.mpr ⟨after, opens⟩, ?_⟩
      rw [Option.isSome_some, if_pos rfl,
        renameText_append (fun _ => isBlank_of_inside proper.old), List.drop_left]

theorem isSome_opened?_renameText (proper : rename.IsProper) (text : List Char) :
    (opened? (renameText rename text)).isSome = (opened? text).isSome := by
  induction text with
  | nil => rfl
  | cons c rest ih =>
      rcases renameText_cases proper c rest with ⟨tail, rfl, blank, -, renamed⟩ | ⟨-, renamed⟩
      · rw [renamed, opened?_of_blank blank, opened?_of_blank blank, opened?_word proper.new,
          opened?_word proper.old]
      · rw [renamed]
        cases blank : isBlank c with
        | true => rw [opened?_of_blank blank, opened?_of_blank blank, ih]
        | false =>
            rw [opened?_of_solid blank, opened?_of_solid blank]
            split <;> rfl

theorem isSome_value?_renameText (proper : rename.IsProper) (text : List Char) :
    (value? (renameText rename text)).isSome = (value? text).isSome := by
  induction text with
  | nil => rfl
  | cons c rest ih =>
      rcases renameText_cases proper c rest with ⟨tail, rfl, blank, -, renamed⟩ | ⟨-, renamed⟩
      · rw [renamed, value?_of_blank blank, value?_of_blank blank, value?_word proper.new,
          value?_word proper.old]
      · rw [renamed]
        cases blank : isBlank c with
        | true => rw [value?_of_blank blank, value?_of_blank blank, ih]
        | false =>
            rw [value?_of_solid blank, value?_of_solid blank]
            split
            · exact isSome_opened?_renameText proper rest
            · rfl

/-- An attribute in front of a renamed text has the new name, or it was there before. -/
theorem afterAttribute?_of_renameText (proper : rename.IsProper) {name : List Char}
    (word : IsWord name) (notNew : name ≠ rename.new.toList) (c : Char) (rest : List Char)
    (found : (afterAttribute? name (renameText rename (c :: rest))).isSome = true) :
    (afterAttribute? name (c :: rest)).isSome = true ∧ name ≠ rename.old.toList := by
  obtain ⟨after, found⟩ := Option.isSome_iff_exists.mp found
  obtain ⟨d, tail, same, blank, opens⟩ := afterAttribute?_eq_some_iff.mp found
  obtain ⟨e, behind, rfl, ends⟩ := head_of_value? opens
  rcases renameText_cases proper c rest with ⟨before, rfl, -, opened, renamed⟩ | ⟨none, renamed⟩
  · -- Both names end here, so they would be the same.
    rw [← isSome_value?_renameText proper] at opened
    obtain ⟨after, opened⟩ := Option.isSome_iff_exists.mp opened
    obtain ⟨f, front, isTail, endsToo⟩ := head_of_value? opened
    rw [renamed, isTail] at same
    obtain ⟨isNew, -⟩ := word_eq_of_append_eq proper.new word endsToo ends (List.cons.inj same).2
    exact absurd isNew.symm notNew
  · rw [renamed] at same
    obtain ⟨rfl, sameRest⟩ := List.cons.inj same
    obtain ⟨before, rfl, isTail⟩ :=
      exists_of_renameText_eq_append (fun _ => isBlank_of_inside word) sameRest
    have opened : (value? before).isSome = true := by
      rw [← isSome_value?_renameText proper, isTail, opens]
      rfl
    obtain ⟨rest, opened⟩ := Option.isSome_iff_exists.mp opened
    have wasThere : afterAttribute? name (c :: (name ++ before)) = some rest :=
      afterAttribute?_eq_some_iff.mpr ⟨c, before, rfl, blank, opened⟩
    refine ⟨by rw [wasThere]; rfl, ?_⟩
    rintro rfl
    rw [none] at wasThere
    cases wasThere

theorem hasAttribute_of_renameText (proper : rename.IsProper) {name : List Char}
    (word : IsWord name) (notNew : name ≠ rename.new.toList) {text : List Char}
    (found : hasAttribute name (renameText rename text) = true) :
    hasAttribute name text = true ∧ name ≠ rename.old.toList := by
  induction text with
  | nil => cases found
  | cons c rest ih =>
      have inFront := afterAttribute?_of_renameText proper word notNew c rest
      rw [hasAttribute, Bool.or_eq_true]
      rcases renameText_cases proper c rest with ⟨tail, rfl, blank, -, renamed⟩ | ⟨-, renamed⟩
      · rw [renamed] at found inFront
        rw [hasAttribute, Bool.or_eq_true] at found
        rcases found with here | later
        · exact (inFront here).imp_left .inl
        · rw [hasAttribute_append fun _ => isBlank_of_inside proper.new] at later
          have there :
              hasAttribute name (renameText rename (rename.old.toList ++ tail)) = true := by
            rwa [renameText_append fun _ => isBlank_of_inside proper.old,
              hasAttribute_append fun _ => isBlank_of_inside proper.old]
          exact (ih there).imp_left .inr
      · rw [renamed] at found inFront
        rw [hasAttribute, Bool.or_eq_true] at found
        rcases found with here | later
        · exact (inFront here).imp_left .inl
        · exact (ih later).imp_left .inr

/-! ## Words in a renamed text -/

theorem occursIn_append_left (part front : List Char) {back : List Char}
    (found : occursIn part back = true) : occursIn part (front ++ back) = true := by
  induction front with
  | nil => exact found
  | cons c rest ih => rw [List.cons_append, occursIn, ih, Bool.or_true]

theorem occursIn_of_front {part text : List Char} (isFront : part <+: text) :
    occursIn part text = true := by
  cases text with
  | nil => rw [List.prefix_nil.mp isFront]; rfl
  | cons c rest => rw [occursIn, List.isPrefixOf_iff_prefix.mpr isFront, Bool.true_or]

/-- A word is not found across the end of a name. -/
theorem occursIn_append_cons {part front back : List Char} {c : Char} (word : IsWord part)
    (ends : endsName c = true) (found : occursIn part (front ++ c :: back) = true) :
    occursIn part front = true ∨ occursIn part (c :: back) = true := by
  induction front with
  | nil => exact .inr found
  | cons d rest ih =>
      rw [List.cons_append, occursIn, Bool.or_eq_true] at found
      rcases found with here | later
      · obtain ⟨behind, same⟩ := List.isPrefixOf_iff_prefix.mp here
        rw [← List.cons_append] at same
        rcases List.append_eq_append_iff.mp same with ⟨more, isFront, -⟩ | ⟨more, isPart, tail⟩
        · exact .inl (occursIn_of_front ⟨more, isFront.symm⟩)
        · cases more with
          | nil => exact .inl (occursIn_of_front ⟨[], by simpa using isPart⟩)
          | cons e others =>
              obtain ⟨rfl, -⟩ := List.cons.inj tail
              have inside := word.inside c (by rw [isPart]; simp)
              rw [ends] at inside
              cases inside
      · exact (ih later).imp_left fun found => by rw [occursIn, found, Bool.or_true]

/-- Renaming brings no words into a text but those in the new name. -/
theorem occursIn_of_renameText (proper : rename.IsProper) {part : List Char} (word : IsWord part)
    (absent : occursIn part rename.new.toList = false) {text : List Char}
    (found : occursIn part (renameText rename text) = true) : occursIn part text = true := by
  induction text with
  | nil => exact found
  | cons c rest ih =>
      rcases renameText_cases proper c rest with ⟨tail, rfl, blank, opens, renamed⟩ | ⟨-, renamed⟩
      · rw [renamed, occursIn, Bool.or_eq_true] at found
        rw [occursIn, Bool.or_eq_true]
        rcases found with here | later
        · obtain ⟨first, others, rfl⟩ := List.exists_cons_of_ne_nil word.nonempty
          obtain ⟨behind, same⟩ := List.isPrefixOf_iff_prefix.mp here
          obtain ⟨rfl, -⟩ := List.cons.inj same
          have solid := isBlank_of_inside word List.mem_cons_self
          rw [blank] at solid
          cases solid
        · rw [← isSome_value?_renameText proper] at opens
          obtain ⟨after, opens⟩ := Option.isSome_iff_exists.mp opens
          obtain ⟨d, front, isTail, ends⟩ := head_of_value? opens
          rw [isTail] at later
          rcases occursIn_append_cons word ends later with inNew | inTail
          · rw [absent] at inNew
            cases inNew
          · refine .inr (ih ?_)
            rw [renameText_append fun _ => isBlank_of_inside proper.old, isTail]
            exact occursIn_append_left _ _ inTail
      · rw [renamed, occursIn, Bool.or_eq_true] at found
        rw [occursIn, Bool.or_eq_true]
        rcases found with here | later
        · obtain ⟨behind, same⟩ := List.isPrefixOf_iff_prefix.mp here
          rw [← renamed] at same
          obtain ⟨before, isText, -⟩ :=
            exists_of_renameText_eq_append (fun _ => isBlank_of_inside word) same.symm
          exact .inl (List.isPrefixOf_iff_prefix.mpr ⟨before, isText.symm⟩)
        · exact .inr (ih later)

end ComponentSurvey.AttributeRename
