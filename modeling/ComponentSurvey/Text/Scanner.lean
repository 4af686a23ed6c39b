import ComponentSurvey.Text.CharClass

/-!
# Scanners

A scanner takes characters off the front of a text and answers what they mean, or refuses.  A
scanner that refuses has taken nothing.
-/

namespace ComponentSurvey.Text

abbrev Scanner := StateT (List Char) Option

namespace Scanner

variable {α : Type}

def refuse : Scanner α := fun _ => none

def ahead : Scanner (List Char) := get

def peek? : Scanner (Option Char) := return (← get).head?

def satisfy (accepts : Char → Bool) : Scanner Char
  | [] => none
  | c :: rest => if accepts c then some (c, rest) else none

def anyChar : Scanner Char := satisfy fun _ => true

def char (expected : Char) : Scanner Unit := do
  let _ ← satisfy fun c => c = expected

def literal (expected : String) : Scanner Unit := fun text =>
  if expected.toList.isPrefixOf text then some ((), text.drop expected.toList.length) else none

def run (accepts : Char → Bool) : Scanner (List Char) := fun text =>
  some (text.takeWhile accepts, text.dropWhile accepts)

def nonemptyRun (accepts : Char → Bool) : Scanner (List Char) := do
  let found ← run accepts
  if found.isEmpty then refuse else return found

def count (accepts : Char → Bool) (length : Nat) : Scanner (List Char) := fun text =>
  let found := text.take length
  if found.length = length && found.all accepts then some (found, text.drop length) else none

def optional? (scanner : Scanner α) : Scanner (Option α) := fun text =>
  match scanner text with
  | some (value, rest) => some (some value, rest)
  | none => some (none, text)

def test (scanner : Scanner α) : Scanner Bool := fun text => some ((scanner text).isSome, text)

def firstOf : List (Scanner α) → Scanner α
  | [] => refuse
  | scanner :: others => fun text =>
    match scanner text with
    | some found => some found
    | none => firstOf others text

def repeated : Nat → Scanner α → Scanner (List α)
  | 0, _ => return []
  | fuel + 1, scanner => fun text =>
    match scanner text with
    | none => some ([], text)
    | some (value, rest) => ((value :: ·) <$> repeated fuel scanner) rest

def many (scanner : Scanner α) : Scanner (List α) := fun text =>
  repeated text.length scanner text

def separated (separator : Scanner Unit) (scanner : Scanner α) : Scanner (List α) := do
  let first ← scanner
  let others ← many do
    separator
    scanner
  return first :: others

def endOfText : Scanner Unit := fun text => if text.isEmpty then some ((), []) else none

def whole? (scanner : Scanner α) (text : List Char) : Option α :=
  match scanner text with
  | some (value, []) => some value
  | _ => none

def hexDigitValue (c : Char) : Nat :=
  if isDigit c then c.toNat - '0'.toNat
  else if 'a' ≤ c then c.toNat - 'a'.toNat + 10
  else c.toNat - 'A'.toNat + 10

def digitsInBase (base : Nat) (digits : List Char) : Nat :=
  digits.foldl (fun value c => base * value + hexDigitValue c) 0

def charOfNat? (number : Nat) : Option Char :=
  if number.isValidChar then some (Char.ofNat number) else none

end Scanner

end ComponentSurvey.Text
