import ComponentSurvey.Proofs.Json.Layout
import ComponentSurvey.Proofs.Json.Literals
import Mathlib.Data.List.Forall2

/-!
# Reading what was written

Values without fractions, whose whole numbers fit into 64 bits and which are not nested too deep,
are read back from the text that is written for them.
-/

namespace ComponentSurvey.Json

open Text Text.Scanner Json.Parser

variable {rest : List Char}

/-! ## Items between marks -/

/-- A text that a scanner reads as a value, whatever comes next in a written text. -/
structure Written {α : Type} (scanner : Scanner α) (text : List Char) (value : α) : Prop where
  reads : ∀ rest, Stops continuesNumber rest → scanner (text ++ rest) = some (value, rest)
  solid : ∀ rest, Stops isJsonBlank (text ++ rest)

section Enclosed

variable {α : Type} {item : Scanner α} {texts : List (List Char)} {values : List α}
  {margin : Nat}

theorem blanks_append {front text : List Char} (all : ∀ c ∈ front, isJsonBlank c = true)
    (solid : Stops isJsonBlank text) : blanks (front ++ text) = some ((), text) := by
  rw [blanks, bind_of_some (run_append all solid)]
  rfl

theorem blanks_gap {text : List Char} (solid : Stops isJsonBlank text) :
    blanks (gap margin ++ text) = some ((), text) := by
  refine blanks_append (fun c member => ?_) solid
  rcases List.mem_cons.mp member with rfl | padding
  · rfl
  · rw [List.eq_of_mem_replicate padding]
    rfl

theorem blanks_of_stops {text : List Char} (solid : Stops isJsonBlank text) :
    blanks text = some ((), text) := by
  have none : ∀ c ∈ [], isJsonBlank c = true := by simp
  exact blanks_append none solid

theorem mark_cons {c : Char} (plain : isJsonBlank c = false) :
    mark c (c :: rest) = some ((), rest) := by
  rw [mark, bind_of_some (blanks_of_stops (stops_cons.mpr plain)), char_cons]

theorem mark_gap {c : Char} (plain : isJsonBlank c = false) :
    mark c (gap margin ++ c :: rest) = some ((), rest) := by
  rw [mark, bind_of_some (blanks_gap (stops_cons.mpr plain)), char_cons]

theorem stops_furtherItems {tail : List Char} (ends : Stops continuesNumber tail) :
    Stops continuesNumber (furtherItems margin texts ++ tail) := by
  cases texts with
  | nil => exact ends
  | cons text others => exact stops_cons.mpr rfl

theorem takesAll_furtherItems (written : List.Forall₂ (Written item) texts values)
    {tail : List Char} (ends : Stops continuesNumber tail) (closed : mark ',' tail = none) :
    TakesAll (do mark ','; blanks; item) (furtherItems margin texts ++ tail) values tail := by
  induction written with
  | nil => exact .stop (bind_of_none closed)
  | @cons text value texts values here _ ih =>
      have split : furtherItems margin (text :: texts) ++ tail =
          ',' :: (gap margin ++ (text ++ (furtherItems margin texts ++ tail))) := by
        simp [furtherItems]
      rw [split]
      refine .next ?_ ?_ ih
      · rw [bind_of_some (mark_cons rfl), bind_of_some (blanks_gap (here.solid _)),
          here.reads _ (stops_furtherItems ends)]
      · simp only [List.length_cons, List.length_append]
        omega

theorem enclosed_enclosedText (margin : Nat) (first last : Char)
    (written : List.Forall₂ (Written item) texts values)
    (plain : isJsonBlank last = false) (notComma : last ≠ ',')
    (refused : ∀ rest, item (last :: rest) = none) (rest : List Char) :
    enclosed first last item (enclosedText margin first last texts ++ rest) =
      some (values, rest) := by
  cases written with
  | nil =>
      have none : separated (mark ',') (do blanks; item) (last :: rest) = none := by
        refine bind_of_none ?_
        rw [bind_of_some (blanks_of_stops (stops_cons.mpr plain)), refused]
      change enclosed first last item (first :: last :: rest) = _
      rw [enclosed, bind_of_some (char_cons _), bind_of_some (optional?_of_none none),
        bind_of_some (mark_cons plain)]
      rfl
  | @cons text value texts values here others =>
      have split : enclosedText margin first last (text :: texts) ++ rest =
          first :: (gap (margin + 2) ++ (text ++ (furtherItems (margin + 2) texts ++
            (gap margin ++ last :: rest)))) := by
        simp [enclosedText]
      -- behind the last item a line ends, so neither a number nor the list goes on
      have ends : Stops continuesNumber (gap margin ++ last :: rest) := stops_cons.mpr rfl
      have closed : mark ',' (gap margin ++ last :: rest) = none := by
        rw [mark, bind_of_some (blanks_gap (stops_cons.mpr plain))]
        exact char_of_stops (stops_cons.mpr (decide_eq_false notComma))
      have front : (do blanks; item)
          (gap (margin + 2) ++ (text ++ (furtherItems (margin + 2) texts ++
            (gap margin ++ last :: rest)))) =
          some (value, furtherItems (margin + 2) texts ++ (gap margin ++ last :: rest)) := by
        rw [bind_of_some (blanks_gap (here.solid _)), here.reads _ (stops_furtherItems ends)]
      have further : many (do mark ','; blanks; item)
          (furtherItems (margin + 2) texts ++ (gap margin ++ last :: rest)) =
          some (values, gap margin ++ last :: rest) :=
        many_of_takesAll (takesAll_furtherItems others ends closed)
      have all : separated (mark ',') (do blanks; item)
          (gap (margin + 2) ++ (text ++ (furtherItems (margin + 2) texts ++
            (gap margin ++ last :: rest)))) =
          some (value :: values, gap margin ++ last :: rest) := by
        rw [separated, bind_of_some front, bind_of_some further]
        rfl
      rw [split, enclosed, bind_of_some (char_cons _), bind_of_some (optional?_of_some all),
        bind_of_some (mark_gap plain)]
      rfl

theorem enclosed_of_other {c first last : Char} (other : c ≠ first) :
    enclosed first last item (c :: rest) = none :=
  bind_of_none (char_of_stops (stops_cons.mpr (decide_eq_false other)))

end Enclosed

/-! ## Values -/

def IsScalar : Json → Prop
  | .bool _ | .string _ => True
  | .int value => FitsWord value
  | _ => False

/-- Values made of scalars and nulls, nested no deeper than given. -/
def IsReadable : Nat → Json → Prop
  | _, .null => True
  | depth + 1, .array items => ∀ item ∈ items, IsReadable depth item
  | depth + 1, .object members => ∀ member ∈ members, IsReadable depth member.2
  | _, json => IsScalar json

theorem value_eq (depth : Nat) :
    ∃ nested, value depth =
      firstOf (word :: (Json.string <$> Parser.string) :: number :: nested) := by
  cases depth with
  | zero => exact ⟨[], rfl⟩
  | succ depth => exact ⟨_, rfl⟩

/-! ## Written values -/

theorem lines_ne_nil (json : Json) : json.lines ≠ [] := by
  cases json with
  | array items =>
      rw [lines, enclosedLines]
      split <;> simp
  | object members =>
      rw [lines, enclosedLines]
      split <;> simp
  | _ => simp [lines]

theorem itemLines_eq_map (items : List Json) : itemLines items = items.map lines := by
  induction items with
  | nil => rfl
  | cons item rest ih => rw [itemLines, ih, List.map_cons]

theorem memberLines_eq_map (members : List (String × Json)) :
    memberLines members =
      members.map fun member => withStart (quoted member.1 ++ ": ") member.2.lines := by
  induction members with
  | nil => rfl
  | cons member rest ih => rw [memberLines, ih, List.map_cons]

def memberText (margin : Nat) (member : String × Json) : List Char :=
  (quoted member.1).toList ++ (':' :: ' ' :: joined margin member.2.lines)

theorem joined_array (margin : Nat) (items : List Json) :
    joined margin (lines (.array items)) =
      enclosedText margin '[' ']' (items.map fun item => joined (margin + 2) item.lines) := by
  have some : ∀ group ∈ items.map lines, group ≠ [] := by
    intro group member
    obtain ⟨item, -, rfl⟩ := List.mem_map.mp member
    exact lines_ne_nil item
  have laid := joined_enclosedLines margin '[' ']' some
  rw [List.map_map] at laid
  rw [lines, itemLines_eq_map]
  exact laid

theorem joined_object (margin : Nat) (members : List (String × Json)) :
    joined margin (lines (.object members)) =
      enclosedText margin '\x7b' '\x7d' (members.map (memberText (margin + 2))) := by
  have start (member : String × Json) :
      joined (margin + 2) (withStart (quoted member.1 ++ ": ") member.2.lines) =
        memberText (margin + 2) member := by
    rw [joined_withStart _ (lines_ne_nil member.2), String.toList_append, List.append_assoc]
    rfl
  have some : ∀ group ∈ members.map fun member =>
      withStart (quoted member.1 ++ ": ") member.2.lines, group ≠ [] := by
    intro group member
    obtain ⟨entry, -, rfl⟩ := List.mem_map.mp member
    obtain ⟨line, others, written⟩ := List.exists_cons_of_ne_nil (lines_ne_nil entry.2)
    rw [written, withStart]
    simp
  have laid := joined_enclosedLines margin '\x7b' '\x7d' some
  rw [List.map_map] at laid
  rw [lines, memberLines_eq_map]
  refine laid.trans (congrArg _ (List.map_congr_left fun member _ => ?_))
  exact start member

/-! ## Reading written values -/

theorem written_word (depth : Nat) {text : List Char} {json : Json}
    (reads : ∀ rest, word (text ++ rest) = some (json, rest))
    (solid : ∀ rest, Stops isJsonBlank (text ++ rest)) : Written (value depth) text json where
  reads rest _ := by
    obtain ⟨nested, unfolded⟩ := value_eq depth
    rw [unfolded, firstOf_of_some (reads rest)]
  solid := solid

theorem written_string (depth : Nat) (text : String) :
    Written (value depth) (quoted text).toList (.string text) where
  reads rest _ := by
    obtain ⟨nested, unfolded⟩ := value_eq depth
    obtain ⟨others, started⟩ := exists_quoted text
    have noWord : word ((quoted text).toList ++ rest) = none := by
      rw [started]
      exact word_of_stops (stops_cons.mpr rfl)
    rw [unfolded, firstOf_of_none noWord, firstOf_of_some (map_of_some (string_quoted text))]
  solid rest := by
    obtain ⟨others, started⟩ := exists_quoted text
    rw [started]
    exact stops_cons.mpr rfl

theorem written_int (depth : Nat) {value : Int} (fits : FitsWord value) :
    Written (Parser.value depth) (toString value).toList (.int value) := by
  obtain ⟨c, others, written, starts⟩ := exists_start_of_int value
  obtain ⟨solid, noWord, noQuote⟩ := apart_of_startsNumber starts
  refine ⟨fun rest ends => ?_, fun rest => ?_⟩
  · obtain ⟨nested, unfolded⟩ := value_eq depth
    have read := number_toString fits ends
    rw [written, List.cons_append] at read ⊢
    rw [unfolded, firstOf_of_none (word_of_stops (stops_cons.mpr noWord)),
      firstOf_of_none (map_of_none (string_of_stops (stops_cons.mpr (decide_eq_false noQuote)))),
      firstOf_of_some read]
  · rw [written, List.cons_append, stops_cons]
    exact solid

theorem written_null (depth margin : Nat) :
    Written (value depth) (joined margin (lines .null)) .null := by
  rw [lines, joined_singleton]
  exact written_word depth (fun _ => rfl) fun _ => stops_cons.mpr rfl

theorem written_scalar (depth : Nat) {json : Json} (scalar : IsScalar json) (margin : Nat) :
    Written (value depth) (joined margin json.lines) json := by
  cases json with
  | bool value =>
      cases value <;> rw [lines, joined_singleton] <;>
        exact written_word depth (fun _ => rfl) fun _ => stops_cons.mpr rfl
  | int value =>
      rw [lines, joined_singleton]
      exact written_int depth scalar
  | string text =>
      rw [lines, joined_singleton]
      exact written_string depth text
  | null => exact scalar.elim
  | float bits => exact scalar.elim
  | array items => exact scalar.elim
  | object members => exact scalar.elim

theorem written_pair {item : Scanner Json} {name : String} {json : Json} {margin : Nat}
    (written : Written item (joined margin json.lines) json) :
    Written (pair Parser.string item) (memberText margin (name, json)) (name, json) where
  reads rest ends := by
    rw [memberText, List.append_assoc, List.cons_append, List.cons_append, pair,
      bind_of_some (string_quoted name), bind_of_some (mark_cons rfl)]
    have blank : blanks ([' '] ++ (joined margin json.lines ++ rest)) =
        some ((), joined margin json.lines ++ rest) :=
      blanks_append (by simp [isJsonBlank]) (written.solid rest)
    rw [List.singleton_append] at blank
    rw [bind_of_some blank, bind_of_some (written.reads rest ends)]
    rfl
  solid rest := by
    obtain ⟨others, started⟩ := exists_quoted name
    rw [memberText, started]
    exact stops_cons.mpr rfl

theorem value_succ_of_apart {c : Char} (depth : Nat) (noWord : startsWord c = false)
    (noQuote : c ≠ '"') (noNumber : startsNumber c = false) :
    value (depth + 1) (c :: rest) =
      firstOf [
        Json.array <$> enclosed '[' ']' (value depth),
        Json.object <$> enclosed '\x7b' '\x7d' (pair Parser.string (value depth))]
        (c :: rest) := by
  rw [value, firstOf_of_none (word_of_stops (stops_cons.mpr noWord)),
    firstOf_of_none (map_of_none (string_of_stops (stops_cons.mpr (decide_eq_false noQuote)))),
    firstOf_of_none (number_of_stops (stops_cons.mpr noNumber))]

theorem value_bracket (depth : Nat) : value depth (']' :: rest) = none := by
  cases depth with
  | zero =>
      rw [value, firstOf_of_none (word_of_stops (stops_cons.mpr rfl)),
        firstOf_of_none (map_of_none (string_of_stops (stops_cons.mpr rfl))),
        firstOf_of_none (number_of_stops (stops_cons.mpr rfl))]
      rfl
  | succ depth =>
      rw [value_succ_of_apart depth rfl (by decide) rfl,
        firstOf_of_none (map_of_none (enclosed_of_other (by decide))),
        firstOf_of_none (map_of_none (enclosed_of_other (by decide)))]
      rfl

theorem written_array {depth margin : Nat} {items : List Json}
    (written : ∀ item ∈ items, Written (value depth) (joined (margin + 2) item.lines) item) :
    Written (value (depth + 1)) (joined margin (lines (.array items))) (.array items) := by
  have all : List.Forall₂ (Written (value depth))
      (items.map fun item => joined (margin + 2) item.lines) items := by
    rw [List.forall₂_map_left_iff, List.forall₂_same]
    exact written
  obtain ⟨others, opened⟩ := exists_enclosedText margin '[' ']'
    (items.map fun item => joined (margin + 2) item.lines)
  rw [joined_array]
  refine ⟨fun rest _ => ?_, fun rest => ?_⟩
  · have read := enclosed_enclosedText margin '[' ']' all rfl (by decide)
      (fun _ => value_bracket depth) rest
    rw [opened, List.cons_append] at read ⊢
    rw [value_succ_of_apart depth rfl (by decide) rfl, firstOf_of_some (map_of_some read)]
  · rw [opened]
    exact stops_cons.mpr rfl

theorem written_object {depth margin : Nat} {members : List (String × Json)}
    (written : ∀ member ∈ members,
      Written (value depth) (joined (margin + 2) member.2.lines) member.2) :
    Written (value (depth + 1)) (joined margin (lines (.object members))) (.object members) := by
  have all : List.Forall₂ (Written (pair Parser.string (value depth)))
      (members.map (memberText (margin + 2))) members := by
    rw [List.forall₂_map_left_iff, List.forall₂_same]
    exact fun member listed => written_pair (written member listed)
  obtain ⟨others, opened⟩ := exists_enclosedText margin '\x7b' '\x7d'
    (members.map (memberText (margin + 2)))
  rw [joined_object]
  refine ⟨fun rest _ => ?_, fun rest => ?_⟩
  · have read := enclosed_enclosedText margin '\x7b' '\x7d' all rfl (by decide)
      (fun _ => bind_of_none (string_of_stops (stops_cons.mpr rfl))) rest
    rw [opened, List.cons_append] at read ⊢
    rw [value_succ_of_apart depth rfl (by decide) rfl,
      firstOf_of_none (map_of_none (enclosed_of_other (by decide))),
      firstOf_of_some (map_of_some read)]
  · rw [opened]
    exact stops_cons.mpr rfl

theorem written_value (depth : Nat) {json : Json} (readable : IsReadable depth json)
    (margin : Nat) : Written (value depth) (joined margin json.lines) json := by
  -- the items of an array or object stand one level and one margin further in
  induction depth generalizing json margin with
  | zero =>
      cases json with
      | null => exact written_null 0 margin
      | _ => exact written_scalar 0 (by simpa only [IsReadable] using readable) margin
  | succ depth ih =>
      cases json with
      | null => exact written_null _ margin
      | array items => exact written_array fun item member => ih (readable item member) _
      | object members => exact written_object fun member listed => ih (readable member listed) _
      | _ => exact written_scalar _ (by simpa only [IsReadable] using readable) margin

/-- A written text is read as what was written. -/
theorem parse?_pretty {json : Json} (readable : IsReadable nestingLimit json) :
    parse? json.pretty.toList = some json := by
  have written := written_value nestingLimit readable 0
  have solid := written.solid []
  have read := written.reads [] (by intro c next; cases next)
  rw [List.append_nil] at solid read
  have ended : blanks [] = some ((), []) := rfl
  rw [toList_pretty, parse?, Parser.whole?, Scanner.whole?, bind_of_some (blanks_of_stops solid),
    bind_of_some read, bind_of_some ended]
  rfl

end ComponentSurvey.Json
