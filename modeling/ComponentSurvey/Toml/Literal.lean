import ComponentSurvey.Number.Binary64
import ComponentSurvey.Text.Scanner
import ComponentSurvey.Toml.Basic

/-!
# TOML literals

Strings in their four forms, numbers, dates and times.
-/

namespace ComponentSurvey.Toml.Literal

open Text Scanner

def isInlineBlank (c : Char) : Bool := c = ' ' || c = '\t'

/-- A character that may stand in a comment or a string; control characters may not. -/
def isPlain (c : Char) : Bool := c = '\t' || (0x20 ≤ c.toNat && c.toNat ≠ 0x7f)

def inlineBlanks : Scanner Unit := do
  let _ ← run isInlineBlank

def newline : Scanner Unit := firstOf [literal "\n", literal "\r\n"]

def comment : Scanner Unit := do
  char '#'
  let _ ← run isPlain

def restOfLine : Scanner Unit := do
  inlineBlanks
  let _ ← optional? comment
  firstOf [newline, endOfText]

/-- Blanks, comments and line ends between the items of an array. -/
def spacing : Scanner Unit := do
  let _ ← many (firstOf [
    do
      let _ ← nonemptyRun isInlineBlank,
    newline,
    do
      comment
      newline])

def escapedChar : Scanner Char := do
  char '\\'
  match ← anyChar with
  | 'b' => return '\x08'
  | 't' => return '\t'
  | 'n' => return '\n'
  | 'f' => return '\x0c'
  | 'r' => return '\r'
  | '"' => return '"'
  | '\\' => return '\\'
  | 'u' => numbered 4
  | 'U' => numbered 8
  | _ => refuse
where
  numbered (length : Nat) : Scanner Char := do
    match charOfNat? (digitsInBase 16 (← count isHexDigit length)) with
    | some c => return c
    | none => refuse

def basicString : Scanner (List Char) := do
  char '"'
  let content ← many (firstOf [satisfy fun c => isPlain c && c ≠ '"' && c ≠ '\\', escapedChar])
  char '"'
  return content

def literalString : Scanner (List Char) := do
  char '\''
  let content ← run fun c => isPlain c && c ≠ '\''
  char '\''
  return content

/-- A backslash at the end of a line takes away the blanks up to the next character. -/
def joinedLines : Scanner (List Char) := do
  char '\\'
  inlineBlanks
  newline
  let _ ← many (firstOf [
    do
      let _ ← nonemptyRun isInlineBlank,
    newline])
  return []

/-- One or two quotes that do not close a string of several lines. -/
def innerQuotes (quote : Char) : Scanner (List Char) := do
  let quotes ← nonemptyRun fun c => c = quote
  if quotes.length ≤ 2 then return quotes else refuse

/-- Three quotes close; up to two more before them belong to the content. -/
def closingQuotes (quote : Char) : Scanner (List Char) := fun text =>
  let quotes := (text.takeWhile fun c => c = quote).length
  if quotes < 3 then none
  else
    let inner := min (quotes - 3) 2
    some (List.replicate inner quote, text.drop (inner + 3))

def manyLines (quote : Char) (pieces : List (Scanner (List Char))) : Scanner (List Char) := do
  let _ ← count (fun c => c = quote) 3
  let _ ← optional? newline
  let lineEnd : Scanner (List Char) := do
    newline
    return ['\n']
  let content ← many (firstOf (pieces ++ [lineEnd, innerQuotes quote]))
  return content.flatten ++ (← closingQuotes quote)

def basicLines : Scanner (List Char) :=
  manyLines '"' [nonemptyRun fun c => isPlain c && c ≠ '"' && c ≠ '\\', joinedLines,
    List.singleton <$> escapedChar]

def literalLines : Scanner (List Char) :=
  manyLines '\'' [nonemptyRun fun c => isPlain c && c ≠ '\'']

def string : Scanner String :=
  String.ofList <$> firstOf [basicLines, basicString, literalLines, literalString]

def isBareKeyChar (c : Char) : Bool := isAsciiLetter c || isDigit c || c = '_' || c = '-'

def simpleKey : Scanner String :=
  String.ofList <$> firstOf [basicString, literalString, nonemptyRun isBareKeyChar]

/-- How many keys a dotted key may have, and how deep values may be nested. -/
def depthLimit : Nat := 80

def key : Scanner (List String) := do
  let keys ← separated (char '.') do
    inlineBlanks
    let found ← simpleKey
    inlineBlanks
    return found
  if keys.length < depthLimit then return keys else refuse

def sign : Scanner (List Char) := do
  return (← optional? (satisfy fun c => c = '+' || c = '-')).toList

def groupedDigits (accepts : Char → Bool) : Scanner (List Char) := do
  let first ← satisfy accepts
  let others ← many do
    let _ ← optional? (char '_')
    satisfy accepts
  return first :: others

def wholeNumber : Scanner (List Char) := do
  let first ← sign
  if (← peek?) = some '0' then
    char '0'
    return first ++ ['0']
  else return first ++ (← groupedDigits isDigit)

def signedValue (text : List Char) : Int :=
  match text with
  | '-' :: digits => -(Binary64.digitsValue digits : Int)
  | '+' :: digits => Binary64.digitsValue digits
  | digits => Binary64.digitsValue digits

def ranged (value : Int) : Scanner Toml :=
  if -9223372036854775808 ≤ value && value ≤ 9223372036854775807 then return .integer value
  else refuse

def basedInteger (mark : String) (base : Nat) (accepts : Char → Bool) : Scanner Toml := do
  literal mark
  ranged (digitsInBase base (← groupedDigits accepts))

def integer : Scanner Toml :=
  firstOf [
    basedInteger "0x" 16 isHexDigit,
    basedInteger "0o" 8 isOctalDigit,
    basedInteger "0b" 2 isBinaryDigit,
    do ranged (signedValue (← wholeNumber))]

def fraction : Scanner (List Char) := do
  char '.'
  return '.' :: (← groupedDigits isDigit)

def exponent : Scanner (List Char) := do
  let letter ← satisfy fun c => c = 'e' || c = 'E'
  return letter :: (← sign) ++ (← groupedDigits isDigit)

/-- A number beyond the largest finite one is refused, unless it is negative. -/
def float : Scanner Toml := do
  let whole ← wholeNumber
  let rest ← firstOf [
    exponent,
    do return (← fraction) ++ ((← optional? exponent).getD [])]
  let text := whole ++ rest
  let unsigned := text.dropWhile fun c => c = '+' || c = '-'
  if text.head? = some '-' || (Binary64.ofText? unsigned).isSome then
    return .float (String.ofList text)
  else refuse

def specialFloat : Scanner Toml := do
  let first ← sign
  let name ← firstOf [
    do
      literal "inf"
      return "inf",
    do
      literal "nan"
      return "nan"]
  return .float (String.ofList first ++ name)

def twoDigits (least most : Nat) : Scanner Nat := do
  let value := Binary64.digitsValue (← count isDigit 2)
  if least ≤ value && value ≤ most then return value else refuse

def isLeapYear (year : Nat) : Bool := year % 4 = 0 && (year % 100 ≠ 0 || year % 400 = 0)

def daysInMonth (year month : Nat) : Nat :=
  if month = 2 then if isLeapYear year then 29 else 28
  else if [4, 6, 9, 11].contains month then 30 else 31

def date : Scanner Unit := do
  let year := Binary64.digitsValue (← count isDigit 4)
  char '-'
  let month ← twoDigits 1 12
  char '-'
  let _ ← twoDigits 1 (daysInMonth year month)

def time : Scanner Unit := do
  let _ ← twoDigits 0 23
  char ':'
  let _ ← twoDigits 0 59
  char ':'
  let _ ← twoDigits 0 60
  let _ ← optional? do
    char '.'
    let _ ← nonemptyRun isDigit

def offset : Scanner Unit :=
  firstOf [
    do
      let _ ← satisfy fun c => c = 'Z' || c = 'z',
    do
      let _ ← satisfy fun c => c = '+' || c = '-'
      let _ ← twoDigits 0 23
      char ':'
      let _ ← twoDigits 0 59]

def dateTime : Scanner Toml := fun text =>
  let form : Scanner Unit := firstOf [
    do
      date
      let _ ← optional? do
        let _ ← satisfy fun c => c = 'T' || c = 't' || c = ' '
        time
        optional? offset,
    time]
  match form text with
  | some ((), rest) =>
    some (.dateTime (String.ofList (text.take (text.length - rest.length))), rest)
  | none => none

def number : Scanner Toml := firstOf [dateTime, float, specialFloat, integer]

def boolean : Scanner Toml :=
  firstOf [
    do
      literal "true"
      return .boolean true,
    do
      literal "false"
      return .boolean false]

end ComponentSurvey.Toml.Literal
