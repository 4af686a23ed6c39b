import ComponentSurvey.Json.Basic
import ComponentSurvey.Number.Binary64
import ComponentSurvey.Text.Scanner

/-!
# Reading JSON

`value` reads a value and keeps it: its strings must be made of whole characters and its numbers
must be finite.  `skipped` passes over a value of which only the form counts.
-/

namespace ComponentSurvey.Json.Parser

open Text Scanner

def isJsonBlank (c : Char) : Bool := c = ' ' || c = '\t' || c = '\n' || c = '\r'

def blanks : Scanner Unit := do
  let _ ← run isJsonBlank

def mark (expected : Char) : Scanner Unit := do
  blanks
  char expected

def word : Scanner Json :=
  firstOf [
    do
      literal "null"
      return .null,
    do
      literal "true"
      return .bool true,
    do
      literal "false"
      return .bool false]

def isPlain (c : Char) : Bool := 0x20 ≤ c.toNat && c ≠ '"' && c ≠ '\\'

def simpleEscapes : List (Char × Char) := [
  ('"', '"'), ('\\', '\\'), ('/', '/'), ('b', '\x08'), ('f', '\x0c'), ('n', '\n'), ('r', '\r'),
  ('t', '\t')]

def simpleEscape : Scanner Char := do
  char '\\'
  let letter ← anyChar
  match simpleEscapes.find? fun entry => entry.1 = letter with
  | some entry => return entry.2
  | none => refuse

def unit : Scanner Nat := do
  literal "\\u"
  return digitsInBase 16 (← count isHexDigit 4)

/-- A character by its number; one beyond sixteen bits takes two units. -/
def numberedChar : Scanner Char := do
  let first ← unit
  if 0xd800 ≤ first && first < 0xdc00 then
    let second ← unit
    if 0xdc00 ≤ second && second < 0xe000 then
      return Char.ofNat (0x10000 + (first - 0xd800) * 0x400 + (second - 0xdc00))
    else refuse
  else
    match charOfNat? first with
    | some c => return c
    | none => refuse

def string : Scanner String := do
  char '"'
  let content ← many (firstOf [satisfy isPlain, simpleEscape, numberedChar])
  char '"'
  return String.ofList content

/-- A string whose numbered characters need not exist. -/
def skippedString : Scanner Unit := do
  char '"'
  let anyUnit : Scanner Char := do
    let _ ← unit
    return ' '
  let _ ← many (firstOf [satisfy isPlain, simpleEscape, anyUnit])
  char '"'

structure NumberText where
  whole : List Char
  rest : List Char

def numberText : Scanner NumberText := do
  let digits ← nonemptyRun isDigit
  if digits.head? = some '0' && digits ≠ ['0'] then refuse
  else
    let fraction ← optional? do
      char '.'
      return '.' :: (← nonemptyRun isDigit)
    let exponent ← optional? do
      let letter ← satisfy fun c => c = 'e' || c = 'E'
      let sign ← optional? (satisfy fun c => c = '+' || c = '-')
      return letter :: sign.toList ++ (← nonemptyRun isDigit)
    return ⟨digits, fraction.getD [] ++ exponent.getD []⟩

def isNegative : Scanner Bool := return (← optional? (char '-')).isSome

/-- Whole numbers that fit into 64 bits are integers; anything else, and a negative zero, is a
binary fraction. -/
def number : Scanner Json := do
  let negative ← isNegative
  let text ← numberText
  let value := Binary64.digitsValue text.whole
  if text.rest.isEmpty && !negative && value ≤ 18446744073709551615 then return .int value
  else if text.rest.isEmpty && negative && 0 < value && value ≤ 9223372036854775808 then
    return .int (-(value : Int))
  else
    match Binary64.ofText? (text.whole ++ text.rest) with
    | some bits => return .float (if negative then bits + Binary64.signBit else bits)
    | none => refuse

def skippedNumber : Scanner Unit := do
  let _ ← isNegative
  let _ ← numberText

def enclosed {α : Type} (first last : Char) (item : Scanner α) : Scanner (List α) := do
  char first
  let items ← optional? (separated (mark ',') do
    blanks
    item)
  mark last
  return items.getD []

def pair {α : Type} (key : Scanner String) (item : Scanner α) : Scanner (String × α) := do
  let name ← key
  mark ':'
  blanks
  return (name, ← item)

/-- A value in which arrays and objects are nested no deeper than given. -/
def value : Nat → Scanner Json
  | 0 => firstOf [word, Json.string <$> string, number]
  | depth + 1 => firstOf [
      word,
      Json.string <$> string,
      number,
      Json.array <$> enclosed '[' ']' (value depth),
      Json.object <$> enclosed '\x7b' '\x7d' (pair string (value depth))]

def skippedKey : Scanner String := do
  skippedString
  return ""

def skippedTo : Nat → Scanner Unit
  | 0 => refuse
  | fuel + 1 => firstOf [
      do
        let _ ← word,
      skippedString,
      skippedNumber,
      do
        let _ ← enclosed '[' ']' (skippedTo fuel),
      do
        let _ ← enclosed '\x7b' '\x7d' (pair skippedKey (skippedTo fuel))]

def skipped : Scanner Unit := do skippedTo ((← ahead).length + 1)

def nestingLimit : Nat := 127

def whole? {α : Type} (scanner : Scanner α) (text : List Char) : Option α :=
  Scanner.whole?
    (do
      blanks
      let found ← scanner
      blanks
      return found)
    text

end Parser

def parse? (text : List Char) : Option Json :=
  Parser.whole? (Parser.value Parser.nestingLimit) text

end ComponentSurvey.Json
