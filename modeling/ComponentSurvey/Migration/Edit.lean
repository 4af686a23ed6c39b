import ComponentSurvey.Migration.Change
import ComponentSurvey.Order.Insertion
import ComponentSurvey.Text.Position

/-!
# Edits

An edit puts a text in the place of a span of bytes.  Of edits that overlap, the one that starts
first is kept, and of those that start together the longest.
-/

namespace ComponentSurvey

open Text

structure Edit where
  start : Nat
  stop : Nat
  replacement : List Char
  change : Change
deriving DecidableEq, Repr, Inhabited

namespace Edit

/-- Earlier starts come first, and longer spans before shorter ones. -/
def precedes (first second : Edit) : Bool :=
  first.start < second.start || (first.start = second.start && second.stop ≤ first.stop)

/-- Drops each edit that starts before the last kept one has ended. -/
def dropOverlaps : Nat → List Edit → List Edit
  | _, [] => []
  | reached, edit :: rest =>
    if edit.start < reached then dropOverlaps reached rest
    else edit :: dropOverlaps edit.stop rest

def kept (edits : List Edit) : List Edit :=
  dropOverlaps 0 (Order.sortBy precedes edits)

/-- Carries out edits from the last to the first, so that each finds its span where it was. -/
def perform (source : List Char) (edits : List Edit) : List Char :=
  edits.foldr (fun edit text => replaceRange text edit.start edit.stop edit.replacement) source

end Edit

def applyEdits (source : List Char) (edits : List Edit) : List Char × List Change :=
  (Edit.perform source (Edit.kept edits), (Edit.kept edits).map Edit.change)

end ComponentSurvey
