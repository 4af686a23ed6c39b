import ComponentSurvey.Files.Content
import ComponentSurvey.Path.Basic

/-!
# File trees

The files and directories below one directory, as a value.  A place in the tree is the list of
names that lead to it from the top; the top itself is the empty list.  Reading and writing follow a
path from the top down, and only directories have something in them.

A write that finds its place may still fail, as permissions are missing or the device is full.  What
goes wrong is part of the tree, so that a run over all trees is a run over all such failures.
-/

namespace ComponentSurvey

inductive FileError
  | notFound | notDirectory | isDirectory | notText
  | other (message : String)
deriving DecidableEq, Repr, Inhabited

def FileError.message : FileError → String
  | .notFound => "No such file or directory (os error 2)"
  | .notDirectory => "Not a directory (os error 20)"
  | .isDirectory => "Is a directory (os error 21)"
  | .notText => "stream did not contain valid UTF-8"
  | .other message => message

abbrev Place := List (List Char)

namespace Place

def path (place : Place) : String :=
  String.ofList (['/'].intercalate place)

end Place

inductive Entry
  | file (content : Content)
  | directory
deriving DecidableEq, Repr, Inhabited

/-- How a write fails that has found its place. -/
structure WriteFault where
  error : FileError
  /-- What the file is left with, unless it is left as it was. -/
  left : Option Content
deriving DecidableEq, Repr, Inhabited

structure FileTree where
  top : String
  entries : List (Place × Entry)
  /-- What goes wrong with the writes to come, one after the other; all further ones go well. -/
  faults : List (Option WriteFault) := []
deriving DecidableEq, Repr, Inhabited

namespace FileTree

def find? (tree : FileTree) (place : Place) : Option Entry :=
  if place.isEmpty then some .directory
  else (tree.entries.find? fun entry => entry.1 = place).map Prod.snd

def putEntry (place : Place) (entry : Entry) : List (Place × Entry) → List (Place × Entry)
  | [] => [(place, entry)]
  | (other, old) :: rest =>
    if other = place then (place, entry) :: rest else (other, old) :: putEntry place entry rest

def put (tree : FileTree) (place : Place) (entry : Entry) : FileTree :=
  { tree with entries := putEntry place entry tree.entries }

theorem find?_putEntry (place other : Place) (entry : Entry) (entries : List (Place × Entry)) :
    ((putEntry place entry entries).find? fun e => e.1 = other).map Prod.snd =
      if other = place then some entry
      else (entries.find? fun e => e.1 = other).map Prod.snd := by
  induction entries with
  | nil => by_cases same : place = other <;> simp [putEntry, same, eq_comm]
  | cons head rest ih =>
    obtain ⟨next, old⟩ := head
    by_cases here : next = place <;> by_cases same : other = place <;>
      by_cases found : next = other <;> simp_all [putEntry, eq_comm]

theorem find?_put (tree : FileTree) {place : Place} (other : Place) (entry : Entry)
    (below : place ≠ []) :
    (tree.put place entry).find? other =
      if other = place then some entry else tree.find? other := by
  by_cases top : other = []
  · simp [find?, top, below.symm]
  · simp [find?, put, top, find?_putEntry]

def enter (tree : FileTree) (place : Place) (part : List Char) : Except FileError Place :=
  match tree.find? place with
  | none => .error .notFound
  | some (.file _) => .error .notDirectory
  | some .directory =>
    if part.isEmpty || part = ['.'] then .ok place
    else if part = ['.', '.'] then .ok place.dropLast
    else .ok (place ++ [part])

/-- The part of a path below the top; nothing is known about what lies elsewhere. -/
def below? (tree : FileTree) (path : String) : Option (List Char) :=
  let top := tree.top.toList
  if path = tree.top then some []
  else if (top ++ ['/']).isPrefixOf path.toList then some (path.toList.drop (top.length + 1))
  else none

/-- The place that a path leads to, whether or not anything is there. -/
def locate (tree : FileTree) (path : String) : Except FileError Place :=
  match tree.below? path with
  | none => .error .notFound
  | some rest => (Path.splitAt '/' rest).foldlM tree.enter []

def lookup (tree : FileTree) (path : String) : Except FileError Entry := do
  match tree.find? (← tree.locate path) with
  | some entry => return entry
  | none => throw .notFound

def isFile (tree : FileTree) (path : String) : Bool :=
  match tree.lookup path with
  | .ok (.file _) => true
  | _ => false

def isDirectory (tree : FileTree) (path : String) : Bool :=
  match tree.lookup path with
  | .ok .directory => true
  | _ => false

def readContent (tree : FileTree) (path : String) : Except FileError Content := do
  match ← tree.lookup path with
  | .file content => return content
  | .directory => throw .isDirectory

def readText (tree : FileTree) (path : String) : Except FileError (List Char) := do
  match ← tree.readContent path with
  | .text chars => return chars
  | .bytes _ => throw .notText

def target (tree : FileTree) (path : String) : Except FileError Place := do
  let place ← tree.locate path
  match tree.find? place with
  | some .directory => throw .isDirectory
  | _ => return place

def fault? (tree : FileTree) : Option WriteFault := tree.faults.head?.join

def pastFault (tree : FileTree) : FileTree := { tree with faults := tree.faults.tail }

/-- Writes a file into a directory that is already there.  The tree that is left counts also when
the write fails, since the file may have been cut off. -/
def write (tree : FileTree) (path : String) (content : Content) : FileTree × Option FileError :=
  match tree.target path with
  | .error error => (tree, some error)
  | .ok place =>
    match tree.fault? with
    | none => (tree.pastFault.put place (.file content), none)
    | some ⟨error, none⟩ => (tree.pastFault, some error)
    | some ⟨error, some left⟩ => (tree.pastFault.put place (.file left), some error)

def copy (tree : FileTree) (source target : String) : FileTree × Option FileError :=
  match tree.readContent source with
  | .error error => (tree, some error)
  | .ok content => tree.write target content

def remove? (tree : FileTree) (path : String) : Option FileTree :=
  match tree.locate path with
  | .error _ => none
  | .ok place =>
    match tree.find? place with
    | some (.file _) =>
      some { tree with entries := tree.entries.filter fun entry => entry.1 ≠ place }
    | _ => none

def empty (top : String) : FileTree := { top := top, entries := [] }

def ensureDirectory (tree : FileTree) (place : Place) : FileTree :=
  if (tree.find? place).isSome then tree else tree.put place .directory

def makeSteps (tree : FileTree) (place : Place) : Nat → FileTree
  | 0 => tree
  | count + 1 => (tree.makeSteps place count).ensureDirectory (place.take count)

def makeWay (tree : FileTree) (place : Place) : FileTree := tree.makeSteps place place.length

def placeBelow (path : String) : Place :=
  (Path.splitAt '/' path.toList).filter fun part => !part.isEmpty && part ≠ ['.']

def addFile (tree : FileTree) (path : String) (content : Content) : FileTree :=
  let place := placeBelow path
  (tree.makeWay place).put place (.file content)

/-- Adds a directory below the top, with the directories around it, unless something is there. -/
def addDirectory (tree : FileTree) (path : String) : FileTree :=
  tree.makeWay (placeBelow path ++ [[]])

def ofFiles (top : String) (files : List (String × Content)) : FileTree :=
  files.foldl (fun (tree : FileTree) file => tree.addFile file.1 file.2) (empty top)

def filesBelow (tree : FileTree) (directory : Place) : List Place :=
  tree.entries.filterMap fun entry =>
    match entry.2 with
    | .file _ => if directory.isPrefixOf entry.1 then some entry.1 else none
    | .directory => none

def filesBeyond (tree other : FileTree) : List (Place × Content) :=
  tree.entries.filterMap fun entry =>
    match entry.2 with
    | .file content => if other.entries.contains entry then none else some (entry.1, content)
    | .directory => none

end FileTree

end ComponentSurvey
