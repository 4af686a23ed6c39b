/-!
# Paths

A path is a text whose parts stand between slashes.  Empty parts count for nothing, and neither
does a dot, except in front.  Paths with the same parts are the same path, and paths are ordered by
their parts, not by their characters.
-/

namespace ComponentSurvey.Path

inductive Part
  | root
  | here
  | up
  | name (text : List Char)
deriving DecidableEq, Repr, Inhabited

/-- The texts between the separators: one more than there are separators. -/
def splitAt (separator : Char) : List Char → List (List Char)
  | [] => [[]]
  | c :: rest =>
    if c = separator then [] :: splitAt separator rest
    else
      match splitAt separator rest with
      | [] => [[c]]
      | first :: others => (c :: first) :: others

def innerPart? (text : List Char) : Option Part :=
  if text.isEmpty || text = ['.'] then none
  else if text = ['.', '.'] then some .up
  else some (.name text)

/-- The text between two slashes of a path and the part that it is, if it counts for anything. -/
abbrev Piece := List Char × Option Part

def innerPiece (text : List Char) : Piece := (text, innerPart? text)

def pieces (path : List Char) : List Piece :=
  match path with
  | '/' :: rest => ([], some .root) :: (splitAt '/' rest).map innerPiece
  | _ =>
    match splitAt '/' path with
    | ['.'] :: others => (['.'], some .here) :: others.map innerPiece
    | texts => texts.map innerPiece

def partsOf (path : List Char) : List Part := (pieces path).filterMap Prod.snd

def parts (path : String) : List Part := partsOf path.toList

namespace Part

def rank : Part → Nat
  | root => 0
  | here => 1
  | up => 2
  | name _ => 3

def isLess : Part → Part → Bool
  | name first, name second => decide (first < second)
  | first, second => first.rank < second.rank

end Part

def isLessParts : List Part → List Part → Bool
  | [], [] => false
  | [], _ :: _ => true
  | _ :: _, [] => false
  | first :: others, second :: more =>
    first.isLess second || (first = second && isLessParts others more)

def isLess (first second : String) : Bool := isLessParts (parts first) (parts second)

def isSame (first second : String) : Bool := parts first = parts second

def mayPrecede (first second : String) : Bool := !isLess second first

def fileName? (path : String) : Option String :=
  match (parts path).getLast? with
  | some (.name text) => some (String.ofList text)
  | _ => none

/-- A path seen from a directory; one that begins at the root stays what it is. -/
def join (directory path : String) : String :=
  if path.startsWith "/" || directory.isEmpty then path
  else if directory.endsWith "/" then directory ++ path
  else directory ++ "/" ++ path

/-- What follows the given parts, if the pieces begin with them. -/
def behind? : List Part → List Piece → Option (List Piece)
  | [], pieces => some pieces
  | _ :: _, [] => none
  | part :: parts, piece :: others =>
    match piece.2 with
    | none => behind? (part :: parts) others
    | some found => if found = part then behind? parts others else none

def counts (piece : Piece) : Bool := piece.2.isSome

/-- Drops what counts for nothing at both ends. -/
def trimmed (pieces : List Piece) : List Piece :=
  ((pieces.dropWhile fun piece => !counts piece).reverse.dropWhile fun piece =>
    !counts piece).reverse

def textOf (pieces : List Piece) : String :=
  String.ofList (['/'].intercalate (pieces.map Prod.fst))

def relativeTo? (directory path : String) : Option String :=
  (behind? (parts directory) (pieces path.toList)).map fun rest => textOf (trimmed rest)

end ComponentSurvey.Path
