import ComponentSurvey.Json.Parser
import ComponentSurvey.Json.Printer
import ComponentSurvey.Proofs.Text.Scanner
import Mathlib.Tactic.SplitIfs

/-!
# Reading written words, strings and numbers

Every string is read back from its quoted form, and every whole number of 64 bits from its digits.
The first character of a text tells which of them it can be.
-/

namespace ComponentSurvey.Json

open Text Text.Scanner Json.Parser

variable {rest : List Char}

def contentChar : Scanner Char := firstOf [satisfy isPlain, simpleEscape, numberedChar]

theorem hexText_of_control : ∀ number < 0x20,
    (hexText number).length = 4 ∧ (hexText number).all isHexDigit = true ∧
      digitsInBase 16 (hexText number) = number := by
  decide

theorem unit_hexText {number : Nat} (control : number < 0x20) :
    unit (['\\', 'u'] ++ hexText number ++ rest) = some (number, rest) := by
  obtain ⟨four, hex, read⟩ := hexText_of_control number control
  have counted : count isHexDigit 4 (hexText number ++ rest) = some (hexText number, rest) := by
    rw [count, List.take_left' four, List.drop_left' four, if_pos (by simp [four, hex])]
  have marked : literal "\\u" (['\\', 'u'] ++ hexText number ++ rest) =
      some ((), hexText number ++ rest) := by
    rw [literal, if_pos (by simp)]
    rfl
  rw [unit, bind_of_some marked, bind_of_some counted, read]
  rfl

theorem numberedChar_hexText {c : Char} (control : c.toNat < 0x20) :
    numberedChar (['\\', 'u'] ++ hexText c.toNat ++ rest) = some (c, rest) := by
  -- so small a number is no half of a pair
  have single : ¬(0xd800 ≤ c.toNat) := by omega
  have itself : charOfNat? c.toNat = some c := by
    rw [charOfNat?, if_pos (.inl (by omega)), Char.ofNat_toNat]
  rw [numberedChar, bind_of_some (unit_hexText control)]
  simp only [single, decide_false, Bool.false_and, Bool.false_eq_true, if_false, itself]
  rfl

theorem contentChar_escapedChar (c : Char) :
    contentChar (escapedChar c ++ rest) = some (c, rest) := by
  rw [escapedChar]
  split_ifs with quote backslash feed back tab blank page control
  · rw [quote]; rfl
  · rw [backslash]; rfl
  · rw [feed]; rfl
  · rw [back]; rfl
  · rw [tab]; rfl
  · rw [blank]; rfl
  · rw [page]; rfl
  · rw [contentChar, firstOf_of_none rfl, firstOf_of_none rfl]
    exact firstOf_of_some (numberedChar_hexText control)
  · have plain : isPlain c = true := by
      simp only [isPlain, Bool.and_eq_true, decide_eq_true_eq]
      exact ⟨⟨by omega, quote⟩, backslash⟩
    exact firstOf_of_some (satisfy_cons plain)

theorem takesAll_contentChar (chars : List Char) :
    TakesAll contentChar (chars.flatMap escapedChar ++ '"' :: rest) chars ('"' :: rest) := by
  induction chars with
  | nil => exact .stop rfl
  | cons c others ih =>
      have nonempty : 0 < (escapedChar c).length := by
        rw [escapedChar]
        split_ifs <;> simp
      rw [List.flatMap_cons, List.append_assoc]
      refine .next (contentChar_escapedChar c) ?_ ih
      simp only [List.length_append] at nonempty ⊢
      omega

theorem string_quoted (text : String) :
    Parser.string ((quoted text).toList ++ rest) = some (text, rest) := by
  rw [quoted, String.toList_ofList, List.append_assoc, List.append_assoc, Parser.string,
    ← contentChar, List.singleton_append, bind_of_some (char_cons _), List.singleton_append,
    bind_of_some (many_of_takesAll (takesAll_contentChar text.toList)),
    bind_of_some (char_cons _), String.ofList_toList]
  rfl

def continuesNumber (c : Char) : Bool := isDigit c || c = '.' || c = 'e' || c = 'E'

theorem isDigit_of_mem_toDigits (number : Nat) :
    ∀ c ∈ Nat.toDigits 10 number, isDigit c = true :=
  fun _ member => Nat.isDigit_of_mem_toDigits (by decide) (by decide) member

theorem digitsValue_toDigits (number : Nat) :
    Binary64.digitsValue (Nat.toDigits 10 number) = number :=
  Nat.ofDigitChars_toDigits (by decide) (by decide)

theorem toDigits_of_head?_zero (number : Nat) (zero : (Nat.toDigits 10 number).head? = some '0') :
    Nat.toDigits 10 number = ['0'] := by
  induction number using Nat.strongRecOn with
  | ind number ih =>
      by_cases small : number < 10
      · have single := Nat.toDigits_of_lt_base small
        rw [single, List.head?_cons, Option.some.injEq] at zero
        rw [single, zero]
      · have parted := Nat.toDigits_of_base_le (b := 10) (by decide) (Nat.le_of_not_lt small)
        have leading : Nat.toDigits 10 (number / 10) = ['0'] := by
          refine ih (number / 10) (by omega) ?_
          rwa [parted, List.head?_append, Option.or_of_isSome (by simp)] at zero
        have none := digitsValue_toDigits (number / 10)
        rw [leading] at none
        have : number / 10 = 0 := none.symm
        omega

theorem numberText_toDigits (number : Nat) (ends : Stops continuesNumber rest) :
    numberText (Nat.toDigits 10 number ++ rest) = some (⟨Nat.toDigits 10 number, []⟩, rest) := by
  have digits := nonemptyRun_append Nat.toDigits_ne_nil
    (isDigit_of_mem_toDigits number)
    (ends.mono fun c digit => by simp [continuesNumber, digit])
  have leading : ¬((Nat.toDigits 10 number).head? = some '0' &&
      Nat.toDigits 10 number ≠ ['0']) = true := by
    simpa using toDigits_of_head?_zero number
  rw [numberText, bind_of_some digits, if_neg leading]
  have noFraction : Stops (fun c => c = '.') rest :=
    ends.mono (by simp +contextual [continuesNumber])
  have noExponent : Stops (fun c => c = 'e' || c = 'E') rest :=
    ends.mono (by simp +contextual [continuesNumber])
  rw [bind_of_some (optional?_of_none (bind_of_none (char_of_stops noFraction))),
    bind_of_some (optional?_of_none (bind_of_none (satisfy_of_stops noExponent)))]
  rfl

def startsNumber (c : Char) : Bool := isDigit c || c = '-'

theorem isNegative_of_stops {text : List Char} (stops : Stops (fun c => c = '-') text) :
    isNegative text = some (false, text) := by
  rw [isNegative, bind_of_some (optional?_of_none (char_of_stops stops))]
  rfl

theorem isNegative_cons : isNegative ('-' :: rest) = some (true, rest) := by
  rw [isNegative, bind_of_some (optional?_of_some (char_cons _))]
  rfl

theorem number_of_stops {text : List Char} (stops : Stops startsNumber text) :
    number text = none := by
  have unsigned : Stops (fun c => c = '-') text :=
    stops.mono (by simp +contextual [startsNumber])
  have noDigits : Stops isDigit text := stops.mono (by simp +contextual [startsNumber])
  rw [number, bind_of_some (isNegative_of_stops unsigned)]
  exact bind_of_none (bind_of_none (nonemptyRun_of_stops noDigits))

theorem exists_digit_of_toDigits (number : Nat) :
    ∃ c others, Nat.toDigits 10 number = c :: others ∧ isDigit c = true := by
  obtain ⟨c, others, written⟩ := List.exists_cons_of_ne_nil (Nat.toDigits_ne_nil (n := number))
  exact ⟨c, others, written, isDigit_of_mem_toDigits number c (written ▸ List.mem_cons_self)⟩

theorem number_toDigits {value : Nat} (fits : value ≤ 18446744073709551615)
    (ends : Stops continuesNumber rest) :
    number (Nat.toDigits 10 value ++ rest) = some (.int value, rest) := by
  have unsigned : Stops (fun c => c = '-') (Nat.toDigits 10 value ++ rest) := by
    obtain ⟨c, others, written, digit⟩ := exists_digit_of_toDigits value
    rw [written, List.cons_append, stops_cons, decide_eq_false_iff_not]
    rintro rfl
    cases digit
  rw [number, bind_of_some (isNegative_of_stops unsigned),
    bind_of_some (numberText_toDigits value ends)]
  simp only [digitsValue_toDigits, List.isEmpty_nil, Bool.not_false, Bool.and_self,
    Bool.true_and, fits, decide_true, if_true]
  rfl

theorem number_minus_toDigits {value : Nat} (positive : 0 < value)
    (fits : value ≤ 9223372036854775808) (ends : Stops continuesNumber rest) :
    number ('-' :: (Nat.toDigits 10 value ++ rest)) = some (.int (-value), rest) := by
  rw [number, bind_of_some isNegative_cons, bind_of_some (numberText_toDigits value ends)]
  simp only [digitsValue_toDigits, List.isEmpty_nil, Bool.not_true, Bool.and_false,
    Bool.false_and, Bool.false_eq_true, if_false, Bool.true_and, positive, fits, decide_true,
    if_true]
  rfl

theorem toList_toString_ofNat (value : Nat) :
    (toString (Int.ofNat value)).toList = Nat.toDigits 10 value := by
  simp [toString, Int.repr]

theorem toList_toString_negSucc (value : Nat) :
    (toString (Int.negSucc value)).toList = '-' :: Nat.toDigits 10 (value + 1) := by
  simp [toString, Int.repr]

def FitsWord (value : Int) : Prop :=
  -9223372036854775808 ≤ value ∧ value ≤ 18446744073709551615

theorem number_toString {value : Int} (fits : FitsWord value)
    (ends : Stops continuesNumber rest) :
    number ((toString value).toList ++ rest) = some (.int value, rest) := by
  obtain ⟨low, high⟩ := fits
  cases value with
  | ofNat value =>
      rw [toList_toString_ofNat]
      exact number_toDigits (Int.ofNat_le.mp high) ends
  | negSucc value =>
      rw [toList_toString_negSucc, List.cons_append]
      exact number_minus_toDigits (by omega) (by omega) ends

def startsWord (c : Char) : Bool := c = 'n' || c = 't' || c = 'f'

theorem word_of_stops {text : List Char} (stops : Stops startsWord text) : word text = none := by
  have noNull : Stops (fun d => d = 'n') text := stops.mono (by simp +contextual [startsWord])
  have noTrue : Stops (fun d => d = 't') text := stops.mono (by simp +contextual [startsWord])
  have noFalse : Stops (fun d => d = 'f') text := stops.mono (by simp +contextual [startsWord])
  rw [word, firstOf_of_none (bind_of_none (literal_of_stops rfl noNull)),
    firstOf_of_none (bind_of_none (literal_of_stops rfl noTrue)),
    firstOf_of_none (bind_of_none (literal_of_stops rfl noFalse))]
  rfl

theorem string_of_stops {text : List Char} (stops : Stops (fun c => c = '"') text) :
    Parser.string text = none :=
  bind_of_none (char_of_stops stops)

theorem exists_quoted (text : String) : ∃ others, (quoted text).toList = '"' :: others :=
  ⟨_, String.toList_ofList⟩

theorem exists_start_of_int (value : Int) :
    ∃ c others, (toString value).toList = c :: others ∧ startsNumber c = true := by
  cases value with
  | ofNat value =>
      obtain ⟨c, others, written, digit⟩ := exists_digit_of_toDigits value
      exact ⟨c, others, (toList_toString_ofNat value).trans written, by simp [startsNumber, digit]⟩
  | negSucc value => exact ⟨'-', _, toList_toString_negSucc value, rfl⟩

theorem apart_of_startsNumber {c : Char} (starts : startsNumber c = true) :
    isJsonBlank c = false ∧ startsWord c = false ∧ c ≠ '"' := by
  have other {d : Char} (outside : startsNumber d = false) : c ≠ d := by
    rintro rfl
    rw [outside] at starts
    cases starts
  refine ⟨?_, ?_, other rfl⟩
  · simp [isJsonBlank, other (d := ' ') rfl, other (d := '\t') rfl, other (d := '\n') rfl,
      other (d := '\r') rfl]
  · simp [startsWord, other (d := 'n') rfl, other (d := 't') rfl, other (d := 'f') rfl]

end ComponentSurvey.Json
