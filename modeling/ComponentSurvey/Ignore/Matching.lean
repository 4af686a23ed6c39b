import ComponentSurvey.Ignore.Pattern

/-!
# Matching the patterns of ignore files

A pattern is matched against bytes.  For each token all ways to match are followed at once: from
the texts that may be left before the token come the texts that may be left after it.
-/

namespace ComponentSurvey.Ignore

def separator : UInt8 := 47

def isSeparatorByte (byte : UInt8) : Bool := byte = separator

/-- The bytes of a class, as first and last of each range.  A range between characters of several
bytes runs from the last byte of the first one to the first byte of the last one; the other bytes
stand alone. -/
def byteRanges (range : Char × Char) : List (UInt8 × UInt8) :=
  let first := String.utf8EncodeChar range.1
  let last := String.utf8EncodeChar range.2
  let alone (bytes : List UInt8) := bytes.map fun byte => (byte, byte)
  if range.1 = range.2 then alone first
  else
    alone first.dropLast ++ [(first.getLastD 0, last.headD 0)] ++ alone last.tail

def withinRanges (negated : Bool) (ranges : List (Char × Char)) (byte : UInt8) : Bool :=
  (ranges.flatMap byteRanges).any (fun range => range.1 ≤ byte && byte ≤ range.2) != negated

def afterLiteral (c : Char) (text : List UInt8) : List (List UInt8) :=
  let bytes := String.utf8EncodeChar c
  if bytes.isPrefixOf text then [text.drop bytes.length] else []

def afterByte (accepts : UInt8 → Bool) : List UInt8 → List (List UInt8)
  | [] => []
  | byte :: rest => if accepts byte then [rest] else []

def afterRun : List UInt8 → List (List UInt8)
  | [] => [[]]
  | byte :: rest =>
    (byte :: rest) :: if isSeparatorByte byte then [] else afterRun rest

def afterSeparators : List UInt8 → List (List UInt8)
  | [] => []
  | byte :: rest =>
    if isSeparatorByte byte then rest :: afterSeparators rest else afterSeparators rest

def suffixes : List UInt8 → List (List UInt8)
  | [] => [[]]
  | byte :: rest => (byte :: rest) :: suffixes rest

def afterNextSeparator (next : List UInt8 → List (List UInt8)) :
    List UInt8 → List (List UInt8)
  | [] => []
  | byte :: rest => if isSeparatorByte byte then next rest else []

mutual
def Token.after : Token → List UInt8 → List (List UInt8)
  | .literal c, text => afterLiteral c text
  | .anyByte, text => afterByte (fun byte => !isSeparatorByte byte) text
  | .anyRun, text => afterRun text
  | .leadingParts, text => text :: afterSeparators text
  | .trailingParts, text => afterNextSeparator suffixes text
  | .innerParts, text => afterNextSeparator (fun rest => rest :: afterSeparators rest) text
  | .within negated ranges, text => afterByte (withinRanges negated ranges) text
  | .choice branches, text => if branches.isEmpty then [text] else afterAnyOf branches text

def afterAll : List Token → List (List UInt8) → List (List UInt8)
  | [], texts => texts
  | token :: rest, texts => afterAll rest (texts.flatMap fun text => token.after text).eraseDups

def afterAnyOf : List (List Token) → List UInt8 → List (List UInt8)
  | [], _ => []
  | branch :: rest, text => afterAll branch [text] ++ afterAnyOf rest text
end

/-- Two stars alone match everything. -/
def isMatch (tokens : List Token) (text : List UInt8) : Bool :=
  match tokens with
  | [.leadingParts] => true
  | _ => (afterAll tokens [text]).any List.isEmpty

end ComponentSurvey.Ignore
