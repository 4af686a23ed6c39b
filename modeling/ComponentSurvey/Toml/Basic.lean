/-!
# TOML values

A table remembers how it came about, because that decides what may still be added to it.
-/

namespace ComponentSurvey

inductive TableOrigin
  | header
  | implied
  | dotted
  | inline
  | inlineDotted
deriving DecidableEq, Repr, Inhabited

inductive Toml
  | string (value : String)
  | integer (value : Int)
  | float (text : String)
  | boolean (value : Bool)
  | dateTime (text : String)
  | array (items : List Toml)
  | table (origin : TableOrigin) (entries : List (String × Toml))
  | tables (elements : List (List (String × Toml)))
deriving Repr, Inhabited

namespace Toml

abbrev Entries := List (String × Toml)

namespace Entries

def find? (entries : Entries) (key : String) : Option Toml :=
  (List.find? (fun entry => entry.1 = key) entries).map Prod.snd

def erase (entries : Entries) (key : String) : Entries :=
  entries.filter fun entry => entry.1 ≠ key

/-- Adds an entry at the end; a key is used once. -/
def add? (entries : Entries) (key : String) (value : Toml) : Option Entries :=
  if (entries.find? key).isSome then none else some (entries ++ [(key, value)])

def replace (entries : Entries) (key : String) (value : Toml) : Entries :=
  entries.map fun entry => if entry.1 = key then (key, value) else entry

end Entries

inductive PathKind
  | header | dotted | inline
deriving DecidableEq, Repr

namespace PathKind

def origin : PathKind → TableOrigin
  | header => .implied
  | dotted => .dotted
  | inline => .inlineDotted

/-- Whether such a path may lead through a table.  A table with a header is complete, and one
between braces is closed. -/
def mayEnter (kind : PathKind) (origin : TableOrigin) : Bool :=
  match origin with
  | .header => kind = .header
  | .implied | .dotted | .inlineDotted => true
  | .inline => false

end PathKind

/-- Changes the table at the end of a path, which is made as far as it does not exist. -/
def changeAt (kind : PathKind)
    (change : TableOrigin → Entries → Option Entries) :
    List String → TableOrigin → Entries → Option Entries
  | [], origin, entries => change origin entries
  | key :: path, _, entries =>
    match entries.find? key with
    | none => do
      let made ← changeAt kind change path kind.origin []
      return entries ++ [(key, .table kind.origin made)]
    | some (.table origin inner) =>
      if kind.mayEnter origin then do
        return entries.replace key (.table origin (← changeAt kind change path origin inner))
      else none
    | some (.tables elements) =>
      match elements.reverse with
      | [] => none
      | last :: earlier => do
        let changed ← changeAt kind change path .header last
        return entries.replace key (.tables (earlier.reverse ++ [changed]))
    | some _ => none

/-- Adds a value under a key that may be dotted.  A dotted key only reaches tables that dotted
keys have made. -/
def addPair? (kind : PathKind) (path : List String) (key : String) (value : Toml)
    (entries : Entries) : Option Entries :=
  changeAt kind
    (fun origin inner =>
      if path.isEmpty || origin = kind.origin then inner.add? key value else none)
    path .header entries

end Toml

end ComponentSurvey
