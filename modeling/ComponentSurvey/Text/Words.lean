/-!
# Looking for words

Whether one text occurs in another, also without regard to case.  `trimBoth` drops characters at the
ends of a text, and `lines` takes it apart at its line ends.
-/

namespace ComponentSurvey.Text

def occursIn (part : List Char) : List Char → Bool
  | [] => part.isEmpty
  | c :: rest => part.isPrefixOf (c :: rest) || occursIn part rest

def mentions (text : List Char) (word : String) : Bool := occursIn word.toList text

def trimBoth (drops : Char → Bool) (text : List Char) : List Char :=
  (text.dropWhile drops).reverse.dropWhile drops |>.reverse

/-- Lower case, as far as it has ASCII letters: besides the ASCII capitals only the Kelvin sign and
the capital i with a dot have one. -/
def lowered (c : Char) : List Char :=
  if 'A' ≤ c && c ≤ 'Z' then [Char.ofNat (c.toNat + 32)]
  else if c = '\u212a' then ['k']
  else if c = '\u0130' then ['i', '\u0307']
  else [c]

def lowerCase (text : String) : List Char := text.toList.flatMap lowered

/-- The lines of a text with their ends; a final line may have none. -/
def rawLines : List Char → List (List Char)
  | [] => []
  | c :: rest =>
    if c = '\n' then [c] :: rawLines rest
    else
      match rawLines rest with
      | [] => [[c]]
      | line :: others => (c :: line) :: others

def withoutLineEnd (line : List Char) : List Char :=
  match line.reverse with
  | '\n' :: '\r' :: rest => rest.reverse
  | '\n' :: rest => rest.reverse
  | _ => line

def lines (text : List Char) : List (List Char) := (rawLines text).map withoutLineEnd

end ComponentSurvey.Text
