import ComponentSurvey.Text.CharClass
import ComponentSurvey.Text.Position

/-!
# Lexical forms

Each scanner looks at the characters ahead and, when its form stands there, splits them into the
longest match and the rest.  `lineEnds` decides where a statement may end without a semicolon.
-/

namespace ComponentSurvey.Syntax

open Text

abbrev Match := Option (List Char × List Char)

def startsWith (expected : List Char) (text : List Char) : Bool :=
  expected.isPrefixOf text

def splitCount (count : Nat) (text : List Char) : Match :=
  if count = 0 then none else some (text.take count, text.drop count)

/-! ## Escapes -/

def bracedDigits : List Char → Nat → Option Nat
  | [], _ => none
  | c :: rest, seen =>
    if isHexDigit c then bracedDigits rest (seen + 1)
    else if c = '\x7d' && 0 < seen then some (seen + 1)
    else none

def hexEscape (digits : Nat) (text : List Char) : Option Nat :=
  let head := text.take digits
  if head.length = digits && head.all isHexDigit then some digits else none

def unicodeEscape (text : List Char) : Option Nat :=
  match text with
  | '\x7b' :: rest => (bracedDigits rest 0).map (· + 1)
  | _ => hexEscape 4 text

def octalRun (text : List Char) : Nat :=
  ((text.take 3).takeWhile isOctalDigit).length

def escapeLength (text : List Char) : Option Nat :=
  match text with
  | [] => none
  | 'x' :: rest => (hexEscape 2 rest).map (· + 1)
  | 'u' :: rest => (unicodeEscape rest).map (· + 1)
  | c :: rest =>
    if isOctalDigit c then some (octalRun text)
    else if c = '\r' || c = '?' then
      match rest with
      | next :: _ => if next = '\n' || next = '\u2028' || next = '\u2029' then some 2 else some 1
      | [] => some 1
    else some 1

/-! ## Names -/

def nameLength : Nat → Bool → List Char → Nat
  | 0, _, _ => 0
  | fuel + 1, first, text =>
    match text with
    | '\\' :: 'u' :: rest =>
      match unicodeEscape rest with
      | some count => count + 2 + nameLength fuel false (rest.drop count)
      | none => 0
    | c :: rest =>
      if (if first then isNameStart c else isNameChar c) then nameLength fuel false rest + 1 else 0
    | [] => 0

def scanName (text : List Char) : Match :=
  splitCount (nameLength (text.length + 1) true text) text

def isMarkupNameChar (c : Char) : Bool :=
  isAsciiLetter c || isDigit c || c = '_' || c = '$'

/-- Tag and attribute names may also hold hyphens, but are then limited to ASCII. -/
def scanMarkupName (text : List Char) : Match :=
  let head := text.takeWhile isMarkupNameChar
  let tail := text.drop head.length
  let hyphenated :=
    match head, tail with
    | first :: _, '-' :: _ =>
      if isDigit first then 0
      else head.length + (tail.takeWhile fun c => isMarkupNameChar c || c = '-').length
    | _, _ => 0
  let plain := nameLength (text.length + 1) true text
  splitCount (max hyphenated plain) text

def scanPrivateName (text : List Char) : Match :=
  match text with
  | '#' :: rest =>
    let count := nameLength (rest.length + 1) true rest
    if count = 0 then none else splitCount (count + 1) text
  | _ => none

/-! ## Numbers -/

def digitRun (isDigit : Char → Bool) : List Char → Nat
  | [] => 0
  | c :: '_' :: tail =>
    if isDigit c then
      if tail.head?.any isDigit then digitRun isDigit tail + 2 else 1
    else 0
  | c :: rest => if isDigit c then digitRun isDigit rest + 1 else 0

def radixRun (letters : List Char) (isDigit : Char → Bool) (text : List Char) : Nat :=
  match text with
  | '0' :: letter :: rest =>
    if letters.contains letter then
      match digitRun isDigit rest with
      | 0 => 0
      | count => count + 2
    else 0
  | _ => 0

def exponentRun (text : List Char) : Nat :=
  match text with
  | letter :: rest =>
    if letter = 'e' || letter = 'E' then
      let (sign, digits) :=
        match rest with
        | '+' :: digits => (1, digits)
        | '-' :: digits => (1, digits)
        | digits => (0, digits)
      match digitRun isDigit digits with
      | 0 => 0
      | count => count + sign + 1
    else 0
  | [] => 0

/-- Length of an integer part that a point or an exponent may follow. -/
def integerRun (text : List Char) : Nat :=
  match text with
  | '0' :: c :: rest => if '1' ≤ c && c ≤ '9' then 1 + digitRun isDigit (c :: rest) else 1
  | '0' :: [] => 1
  | c :: rest => if '1' ≤ c && c ≤ '9' then digitRun isDigit (c :: rest) else 0
  | [] => 0

def pointedRun (text : List Char) : Nat :=
  let whole := integerRun text
  match text.drop whole with
  | '.' :: rest =>
    let fraction := digitRun isDigit rest
    if whole = 0 && fraction = 0 then 0
    else whole + 1 + fraction + exponentRun (rest.drop fraction)
  | rest =>
    match exponentRun rest with
    | 0 => 0
    | count => if whole = 0 then 0 else whole + count

def numberLength (text : List Char) : Nat :=
  let radix := max (radixRun ['x', 'X'] isHexDigit text)
    (max (radixRun ['b', 'B'] isBinaryDigit text) (radixRun ['o', 'O'] isOctalDigit text))
  let digits := digitRun isDigit text
  let whole := max radix digits
  let big := if whole ≠ 0 && (text.drop whole).head? = some 'n' then whole + 1 else 0
  max big (max whole (pointedRun text))

def scanNumber (text : List Char) : Match :=
  splitCount (numberLength text) text

/-! ## Comments of markup pages -/

/-- `<!--` and `-->` open a comment up to the end of the line. -/
def scanPageComment (text : List Char) : Match :=
  if startsWith "<!--".toList text || startsWith "-->".toList text then
    let isEnd (c : Char) : Bool := c = '\n' || c = '\u2028' || c = '\u2029'
    splitCount (text.takeWhile fun c => !isEnd c).length text
  else none

/-! ## Comments, strings and regular expressions -/

def blockCommentTail : List Char → Option Nat
  | [] => none
  | '*' :: '/' :: _ => some 2
  | _ :: rest => (blockCommentTail rest).map (· + 1)

def isLineTerminator (c : Char) : Bool :=
  c = '\n' || c = '\r' || c = '\u2028' || c = '\u2029'

def scanComment (text : List Char) : Match :=
  match text with
  | '/' :: '/' :: rest =>
    splitCount (2 + (rest.takeWhile fun c => !isLineTerminator c).length) text
  | '/' :: '*' :: rest => do
    let count ← blockCommentTail rest
    splitCount (count + 2) text
  | _ => none

/-- Length of a literal after its opening quote, the closing quote included.  At the end of a line
the literal is closed by a quote after nothing but blanks and comments. -/
def stringTail (quote : Char) : Nat → List Char → Option Nat
  | 0, _ => none
  | fuel + 1, text =>
    match text with
    | [] => none
    | '\\' :: rest => do
      let count ← escapeLength rest
      let after ← stringTail quote fuel (rest.drop count)
      return after + count + 1
    | c :: rest =>
      if c = quote then some 1
      else if c = '\n' || c = '\r' then
        let gap := rest.takeWhile isSeparator
        let next := rest.drop gap.length
        match scanComment next with
        | some (comment, after) =>
          (stringTail quote fuel after).map (· + 1 + gap.length + comment.length)
        | none => if next.head? = some quote then some (gap.length + 2) else none
      else (stringTail quote fuel rest).map (· + 1)

def scanString (text : List Char) : Match :=
  match text with
  | quote :: rest =>
    if quote = '"' || quote = '\'' then do
      let count ← stringTail quote (rest.length + 1) rest
      splitCount (count + 1) text
    else none
  | [] => none

def referenceLength (text : List Char) : Option Nat :=
  let closed (skipped : Nat) (limit : Nat) (digits : List Char) (rest : List Char) : Option Nat :=
    if digits.length = 0 || limit < digits.length then none
    else if (rest.drop digits.length).head? = some ';' then some (skipped + digits.length + 1)
    else none
  match text with
  | '&' :: '#' :: letter :: rest =>
    if letter = 'x' || letter = 'X' then closed 3 6 (rest.takeWhile isHexDigit) rest
    else closed 2 5 ((letter :: rest).takeWhile isDigit) (letter :: rest)
  | '&' :: rest => closed 1 30 (rest.takeWhile isAsciiLetter) rest
  | _ => none

/-- Length of the blanks and the comment that open a part of an attribute string, if they do. -/
def openingCommentLength (text : List Char) : Nat :=
  let gap := text.takeWhile fun c => isLineBlank c || c = '\u2028' || c = '\u2029'
  match scanPageComment (text.drop gap.length) with
  | some (comment, _) => gap.length + comment.length
  | none => 0

/-- Length of an attribute string after its opening quote.  Line ends may stand in it; an
ampersand before a letter or `#` must open a character reference.  The comments of markup pages
count only where the string or a part after a reference begins, and hide quotes there. -/
def attributeStringTail (quote : Char) : Nat → Bool → List Char → Option Nat
  | 0, _, _ => none
  | fuel + 1, opens, text =>
    let hidden := if opens then openingCommentLength text else 0
    if hidden ≠ 0 then
      (attributeStringTail quote fuel true (text.drop hidden)).map (· + hidden)
    else
      match text with
      | [] => none
      | '&' :: next :: rest =>
        if next = '#' || isAsciiLetter next then do
          let count ← referenceLength text
          let after ← attributeStringTail quote fuel true (text.drop count)
          return after + count
        else (attributeStringTail quote fuel false rest).map (· + 2)
      | c :: rest =>
        if c = quote then some 1
        else (attributeStringTail quote fuel false rest).map (· + 1)

def scanAttributeString (text : List Char) : Match :=
  match text with
  | quote :: rest =>
    if quote = '"' || quote = '\'' then do
      let count ← attributeStringTail quote (rest.length + 1) true rest
      splitCount (count + 1) text
    else none
  | [] => none

/-- Length of a regular expression after its opening slash, flags included. -/
def regexTail : Bool → Nat → List Char → Option Nat
  | inClass, pending, text =>
    match text with
    | [] => none
    | '\n' :: _ => none
    | '\\' :: next :: rest =>
      if next = '\n' then none else regexTail inClass (pending + 2) rest
    | c :: rest =>
      if inClass then regexTail (c != ']') (pending + 1) rest
      else if c = '/' then
        if pending = 0 then none
        else some (pending + 1 + (rest.takeWhile fun flag => 'a' ≤ flag && flag ≤ 'z').length)
      else if c = '\\' then none
      else regexTail (c = '[') (pending + 1) rest

/-- A comment after nothing but blanks is no part of a regular expression. -/
def scanRegex (text : List Char) : Match :=
  match text with
  | '/' :: rest => do
    if (scanComment (rest.dropWhile isSeparator)).isSome then none
    let count ← regexTail false 0 rest
    splitCount (count + 1) text
  | _ => none

/-! ## Operators -/

/-- Everything that may follow a complete operand, longer marks before their beginnings. -/
def operatorMarks : List (List Char) := [
  ">>>=", "===", "!==", ">>>", ">>=", "<<=", "**=", "&&=", "||=", "??=", "...",
  "==", "!=", "=>", ">>", ">=", "<<", "<=", "**", "*=", "/=", "%=", "^=", "&&", "&=", "||", "|=",
  "??", "?.", "++", "+=", "--", "-=",
  "=", ">", "<", "*", "/", "%", "^", "&", "|", "?", "+", "-", ".", ",", ";", ":", "!", "~",
  "(", ")", "[", "]", "\x7b", "\x7d"].map String.toList

def operatorAhead (text : List Char) : List Char :=
  (operatorMarks.find? fun mark => startsWith mark text).getD []

/-- Whether nothing but plain blanks stands between the next token and the last comment before it.
A question mark that asks for a condition has to stand so. -/
def standsPlainly : Nat → List Char → Bool
  | 0, _ => false
  | fuel + 1, text =>
    let gap := text.takeWhile isSeparator
    match scanComment (text.drop gap.length) with
    | some (_, rest) => standsPlainly fuel rest
    | none => gap.all isLineBlank

/-! ## Ends without a semicolon -/

/-- What may come after the construct being read: the end of a line that ends a statement, a binary
operator, a member taken from the whole, the body of a function, a colon that belongs to the
construct around it, the arrow of the function whose result is being read, the words `in` and `of`
of a loop, or what makes a pattern of the whole. -/
structure Ending where
  mayEnd : Bool := false
  operatorMayFollow : Bool := false
  memberFollows : Bool := false
  bodyMayFollow : Bool := false
  colonFollows : Bool := false
  arrowFollows : Bool := false
  inFollows : Bool := false
  ofFollows : Bool := false
  mayBind : Bool := false
deriving DecidableEq, Repr, Inhabited

namespace Ending

def never : Ending := {}

def beforeColon : Ending := { colonFollows := true }

def inBrackets : Ending := { mayBind := true }

def beforeArrow : Ending := { arrowFollows := true }

def beforeIn : Ending := { inFollows := true, ofFollows := true }

def afterType : Ending := { mayEnd := true }

def afterExpression : Ending := { mayEnd := true, operatorMayFollow := true }

def afterHead : Ending := { mayEnd := true, bodyMayFollow := true }

/-- The ending of the last part of an expression, which is no pattern and from which a loop cannot
take its `in`. -/
def inside (ending : Ending) : Ending := { ending with inFollows := false, mayBind := false }

def withOperators (ending : Ending) : Ending :=
  { ending with operatorMayFollow := true, mayBind := false }

def withMembers (ending : Ending) : Ending :=
  { ending.withOperators with memberFollows := true }

end Ending

/-- Skips blanks and comments; nothing is left of the answer where a slash opens no comment. -/
def afterBlanks : Nat → List Char → Option (List Char)
  | 0, _ => none
  | fuel + 1, text =>
    match text.dropWhile isLineBlank with
    | '/' :: '/' :: rest =>
      afterBlanks fuel (rest.dropWhile fun c => c != '\n' && c != '\u2028' && c != '\u2029')
    | '/' :: '*' :: rest =>
      match blockCommentTail rest with
      | some count => afterBlanks fuel (rest.drop count)
      | none => some []
    | '/' :: _ => none
    | rest => some rest

/-- Whether the next line begins with something that cannot continue the one before. -/
def newLineSeparates (ending : Ending) (text : List Char) : Bool :=
  match afterBlanks (text.length + 1) text with
  | none => false
  | some [] => true
  | some (c :: rest) =>
    if "\x60,.;*%><=?^|&/:".toList.contains c then false
    else if c = '\x7b' then !ending.bodyMayFollow
    else if c = '(' || c = '[' then !ending.operatorMayFollow
    else if c = '+' || c = '-' then rest.head? = some c
    else if c = '!' then rest.head? ≠ some '='
    else if c = 'i' then
      let wordAt (word : List Char) : Bool :=
        startsWith word rest &&
          !((rest.drop word.length).head?.any isAsciiLetter)
      !(wordAt ['n'] || wordAt "nstanceof".toList)
    else true

/-- Whether a statement may end here: at the end of the text, before a closing brace, or before a
new line that separates. -/
def lineEnds (ending : Ending) : List Char → Bool
  | [] => true
  | c :: rest =>
    if c = '\x7d' then
      if (rest.dropWhile isLineBlank).head? = some ':' then ending.operatorMayFollow else true
    else if !isLineBlank c then false
    else if c = '\n' then newLineSeparates ending rest
    else lineEnds ending rest

end ComponentSurvey.Syntax
