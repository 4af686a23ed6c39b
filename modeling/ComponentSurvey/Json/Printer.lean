import ComponentSurvey.Json.Basic
import ComponentSurvey.Number.Shortest

/-!
# Writing JSON

One item or member to a line, two blanks for each level; what is empty stays on its line.
-/

namespace ComponentSurvey.Json

def hexText (value : Nat) : List Char :=
  let digits := Nat.toDigits 16 value
  List.replicate (4 - digits.length) '0' ++ digits

def escapedChar (c : Char) : List Char :=
  if c = '"' then ['\\', '"']
  else if c = '\\' then ['\\', '\\']
  else if c = '\n' then ['\\', 'n']
  else if c = '\r' then ['\\', 'r']
  else if c = '\t' then ['\\', 't']
  else if c = '\x08' then ['\\', 'b']
  else if c = '\x0c' then ['\\', 'f']
  else if c.toNat < 0x20 then ['\\', 'u'] ++ hexText c.toNat
  else [c]

def quoted (text : String) : String :=
  String.ofList (['"'] ++ text.toList.flatMap escapedChar ++ ['"'])

def indented (lines : List String) : List String := lines.map fun line => "  " ++ line

def withStart (start : String) : List String → List String
  | [] => [start]
  | first :: others => (start ++ first) :: others

def withEnd (stop : String) : List String → List String
  | [] => [stop]
  | [last] => [last ++ stop]
  | first :: others => first :: withEnd stop others

def withCommas : List (List String) → List String
  | [] => []
  | [last] => last
  | first :: others => withEnd "," first ++ withCommas others

def enclosedLines (first last : String) (groups : List (List String)) : List String :=
  if groups.isEmpty then [first ++ last]
  else [first] ++ indented (withCommas groups) ++ [last]

mutual
def lines : Json → List String
  | .null => ["null"]
  | .bool value => [if value then "true" else "false"]
  | .int value => [toString value]
  | .float bits => [Binary64.toText bits]
  | .string value => [quoted value]
  | .array items => enclosedLines "[" "]" (itemLines items)
  | .object members => enclosedLines "\x7b" "\x7d" (memberLines members)

def itemLines : List Json → List (List String)
  | [] => []
  | item :: rest => lines item :: itemLines rest

def memberLines : List (String × Json) → List (List String)
  | [] => []
  | (name, value) :: rest => withStart (quoted name ++ ": ") (lines value) :: memberLines rest
end

def pretty (json : Json) : String := "\n".intercalate json.lines

end ComponentSurvey.Json
