import ComponentSurvey.Toml.Literal

/-!
# TOML documents

A document is read as a list of lines, which are then assembled into one table.
-/

namespace ComponentSurvey.Toml

open Text Scanner Literal

def arrayOf (value : Scanner Toml) : Scanner Toml := do
  char '['
  spacing
  let items ← optional? (separated (char ',') do
    spacing
    let item ← value
    spacing
    return item)
  let _ ← if items.isSome then optional? (char ',') else pure none
  spacing
  char ']'
  return .array (items.getD [])

def pairOf (value : Scanner Toml) : Scanner (List String × Toml) := do
  let keys ← key
  char '='
  inlineBlanks
  return (keys, ← value)

def addPairs? (kind : PathKind) (pairs : List (List String × Toml)) (entries : Entries) :
    Option Entries :=
  pairs.foldlM
    (fun entries pair =>
      pair.1.getLast?.bind fun last => addPair? kind pair.1.dropLast last pair.2 entries)
    entries

def inlineTableOf (value : Scanner Toml) : Scanner Toml := do
  char '\x7b'
  let pairs ← optional? (separated (char ',') do
    let pair ← pairOf value
    inlineBlanks
    return pair)
  inlineBlanks
  char '\x7d'
  match addPairs? .inline (pairs.getD []) [] with
  | some entries => return .table .inline entries
  | none => refuse

def scalar : Scanner Toml := do
  match ← peek? with
  | some '"' | some '\'' => return .string (← Literal.string)
  | _ => firstOf [Literal.boolean, number]

def valueOfDepth : Nat → Scanner Toml
  | 0 => scalar
  | depth + 1 => do
    match ← peek? with
    | some '[' => arrayOf (valueOfDepth depth)
    | some '\x7b' => inlineTableOf (valueOfDepth depth)
    | _ => scalar

def value : Scanner Toml := valueOfDepth (depthLimit - 1)

inductive Line
  | blank
  | pair (keys : List String) (value : Toml)
  | header (keys : List String)
  | arrayHeader (keys : List String)
deriving Repr, Inhabited

def headerLine : Scanner Line := do
  char '['
  let keys ← key
  char ']'
  return .header keys

def arrayHeaderLine : Scanner Line := do
  literal "[["
  let keys ← key
  literal "]]"
  return .arrayHeader keys

def pairLine : Scanner Line := do
  let (keys, value) ← pairOf value
  return .pair keys value

def line : Scanner Line := do
  inlineBlanks
  let found ← match ← peek? with
    | none | some '\n' | some '\r' | some '#' => pure .blank
    | some '[' =>
      if ← test (literal "[[") then arrayHeaderLine else headerLine
    | some _ => pairLine
  restOfLine
  return found

/-- All lines.  The last one may be empty and without an end. -/
def lines : Nat → Scanner (List Line)
  | 0 => return []
  | fuel + 1 => do
    if (← ahead).isEmpty then return []
    else return (← line) :: (← lines fuel)

/-- A document so far: the finished part, and the table that pairs are being added to. -/
structure Assembly where
  root : Entries
  current : Entries
  path : List String
  isElement : Bool
deriving Repr, Inhabited

namespace Assembly

def start : Assembly := ⟨[], [], [], false⟩

def finished? (assembly : Assembly) : Option Entries :=
  match assembly.path.getLast? with
  | none => some assembly.current
  | some last =>
    changeAt .header
      (fun _ parent =>
        if assembly.isElement then
          match parent.find? last with
          | none => parent.add? last (.tables [assembly.current])
          | some (.tables elements) =>
            some (parent.replace last (.tables (elements ++ [assembly.current])))
          | some _ => none
        else parent.add? last (.table .header assembly.current))
      assembly.path.dropLast .header assembly.root

/-- The tables that an implied table already holds stay in it when it gets its header. -/
def openTable? (root : Entries) (path : List String) : Option Assembly := do
  let last ← path.getLast?
  let parentPath := path.dropLast
  let found ← lookUp root parentPath last
  match found with
  | none => return ⟨root, [], path, false⟩
  | some (.table .implied entries) =>
    let without ← changeAt .header (fun _ parent => some (parent.erase last)) parentPath .header
      root
    return ⟨without, entries, path, false⟩
  | some _ => none
where
  /-- What stands at a key of the table at the end of a path, if the path can be followed. -/
  lookUp (root : Entries) (path : List String) (key : String) : Option (Option Toml) :=
    match path with
    | [] => some (root.find? key)
    | first :: rest =>
      match root.find? first with
      | none => some none
      | some (.table origin entries) =>
        if PathKind.header.mayEnter origin then lookUp entries rest key else none
      | some (.tables elements) =>
        elements.getLast?.bind fun entries => lookUp entries rest key
      | some _ => none

def openElement? (root : Entries) (path : List String) : Option Assembly := do
  let last ← path.getLast?
  match ← openTable?.lookUp root path.dropLast last with
  | none | some (.tables _) => return ⟨root, [], path, true⟩
  | some _ => none

def add? (assembly : Assembly) : Line → Option Assembly
  | .blank => some assembly
  | .pair keys value => do
    return { assembly with
      current := ← addPairs? .dotted [(keys, value)] assembly.current }
  | .header keys => do openTable? (← assembly.finished?) keys
  | .arrayHeader keys => do openElement? (← assembly.finished?) keys

end Assembly

def ofLines? (lines : List Line) : Option Entries := do
  (← lines.foldlM Assembly.add? .start).finished?

/-- Reads a document; a byte order mark may stand in front. -/
def parse? (text : List Char) : Option Entries := do
  let content := match text with
    | '\ufeff' :: rest => rest
    | rest => rest
  ofLines? (← whole? (lines (content.length + 1)) content)

end ComponentSurvey.Toml
