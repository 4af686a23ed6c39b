import ComponentSurvey.Text.Words

/-!
# Contents of files

A file holds a text, or bytes that are not the UTF-8 form of any text.
-/

namespace ComponentSurvey

inductive Content
  | text (chars : List Char)
  | bytes (raw : List UInt8)
deriving DecidableEq, Repr, Inhabited

namespace Content

def decode? (raw : List UInt8) : Option (List Char) :=
  (String.fromUTF8? ⟨raw.toArray⟩).map String.toList

def ofBytes (raw : List UInt8) : Content :=
  match decode? raw with
  | some chars => .text chars
  | none => .bytes raw

def text? : Content → Option (List Char)
  | text chars => some chars
  | bytes _ => none

def rawByteLines : List UInt8 → List (List UInt8)
  | [] => []
  | byte :: rest =>
    if byte = 10 then [byte] :: rawByteLines rest
    else
      match rawByteLines rest with
      | [] => [[byte]]
      | line :: others => (byte :: line) :: others

/-- The lines up to the first one that is not text. -/
def lines : Content → List (List Char)
  | text chars => Text.lines chars
  | bytes raw =>
    let decoded := ((rawByteLines raw).map decode?).takeWhile Option.isSome
    decoded.filterMap fun line => line.map Text.withoutLineEnd

end Content

end ComponentSurvey
