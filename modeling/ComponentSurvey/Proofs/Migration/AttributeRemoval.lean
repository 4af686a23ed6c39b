import ComponentSurvey.Facts.Extraction
import ComponentSurvey.Migration.DataSourceUpgrade
import ComponentSurvey.Path.Basic
import ComponentSurvey.Proofs.Syntax.Lexical
import ComponentSurvey.Proofs.Text.Position

/-!
# Removing attributes

A removed attribute takes the white space before it along and nothing behind it:
what follows comes to stand right behind what stood before.  That joins an attribute
to the next one where nothing separates the two, and puts the rest of a tag behind
a comment that the line end before the attribute had closed.
-/

namespace ComponentSurvey.DataSourceUpgrade

open Syntax Text

theorem utf8Size_of_isAsciiBlank (c : Char) (blank : isAsciiBlank c = true) :
    c.utf8Size = 1 := by
  simp only [isAsciiBlank, Bool.or_eq_true, decide_eq_true_eq] at blank
  rcases blank with (((rfl | rfl) | rfl) | rfl) | rfl <;> rfl

/-- Cutting from where the white space before an offset begins joins what stands
before that white space to what is left. -/
theorem replaceRange_blankStart {source : List Char} {offset : Nat}
    (within : offset ≤ byteLength source) (stop : Nat) :
    replaceRange source (blankStart source offset) stop [] =
      (takeBytes offset source).rdropWhile isAsciiBlank ++ dropBytes stop source := by
  have start : blankStart source offset =
      offset - byteLength ((takeBytes offset source).rtakeWhile isAsciiBlank) := by
    rw [blankStart, List.rtakeWhile, byteLength_reverse]
  rw [replaceRange, start, List.append_nil,
    takeBytes_sub_rtakeWhile utf8Size_of_isAsciiBlank within]

theorem perform_attributeEdit {document : Document} {attr : Node} {edit : Edit}
    (within : attr.start ≤ byteLength document.source)
    (planned : attributeEdit? document attr = some edit) :
    Edit.perform document.source [edit] =
      (takeBytes attr.start document.source).rdropWhile isAsciiBlank ++
        dropBytes attr.stop document.source := by
  simp only [attributeEdit?, Option.bind_eq_bind, Option.bind_eq_some_iff] at planned
  obtain ⟨name, _, planned⟩ := planned
  split at planned
  · cases planned
    exact replaceRange_blankStart within attr.stop
  · cases planned

section Neighbours

variable {document : Document} {attr : Node} {edit : Edit}
  (within : attr.start ≤ byteLength document.source)
  (planned : attributeEdit? document attr = some edit)
include within planned

/-- A comment before the attribute ends where it did exactly if the attribute was the last
thing on its line. -/
theorem lineComment_kept_iff {front body : List Char}
    (inLine : ∀ c ∈ body, isLineTerminator c = false)
    (before : (takeBytes attr.start document.source).rdropWhile isAsciiBlank =
      front ++ '/' :: '/' :: body) :
    scanComment (dropBytes (byteLength front) (Edit.perform document.source [edit])) =
        some ('/' :: '/' :: body, dropBytes attr.stop document.source) ↔
      (dropBytes attr.stop document.source).head?.all isLineTerminator = true := by
  rw [perform_attributeEdit within planned, before, List.append_assoc, dropBytes_byteLength]
  exact scanComment_line_eq_iff inLine _

/-- A name before the attribute stays apart exactly if what follows the attribute does not
continue names. -/
theorem markupName_kept_iff {front rest : List Char} {c : Char}
    (starts : isDigit c = false) (plain : ∀ d ∈ c :: rest, isMarkupNameChar d = true)
    (before : (takeBytes attr.start document.source).rdropWhile isAsciiBlank =
      front ++ c :: rest) :
    scanMarkupName (dropBytes (byteLength front) (Edit.perform document.source [edit])) =
        some (c :: rest, dropBytes attr.stop document.source) ↔
      continuesName (dropBytes attr.stop document.source) = false := by
  rw [perform_attributeEdit within planned, before, List.append_assoc, dropBytes_byteLength]
  exact scanMarkupName_eq_iff starts plain _

end Neighbours

/-- Whether the upgraded text parses, if the text does. -/
def keepsParsing (path : String) (source : List Char) : Bool :=
  (run path source).code.all fun code => (Document.ofComponentFile? path code).isSome

def commentedTag : List Char :=
  "const x = (\n  <ArchbaseEdit dataSource=\x7bds\x7d // bound above\n".toList ++
    "    forceUpdate />\n);\n".toList

/-- The comment takes in the end of the tag. -/
theorem commentedTag_unparsed :
    (Document.ofComponentFile? "src/App.tsx" commentedTag).isSome = true ∧
      keepsParsing "src/App.tsx" commentedTag = false := by
  decide +kernel

/-- A tag by its name and the names of its attributes. -/
structure TagOutline where
  name : String
  attributes : List String
deriving DecidableEq, Repr

/-- A name with each part of it that is a factory replaced by its successor. -/
def upgradedName (name : List Char) : String :=
  String.ofList <| ['.'].intercalate <| (Path.splitAt '.' name).map fun part =>
    ((renamed? (String.ofList part)).getD (String.ofList part)).toList

/-- Names count up to the renames of factories. -/
def tagOutline (document : Document) (tag : Node) : TagOutline :=
  { name := ((tag.child? .name).map fun name => upgradedName (document.chars name)).getD ""
    attributes := (tag.children.filter fun child => child.kind = .jsxAttribute).filterMap
      fun attr => attr.namedChildren.head?.map document.text }

def tags (document : Document) : List Node := document.nodes.filter fun node => isTag node.kind

def tagOutlines (document : Document) : List TagOutline :=
  (tags document).map (tagOutline document)

def isRemoved (document : Document) (offset : Nat) : Bool :=
  (Edit.kept (edits document (Imports.ofDocument document))).any fun edit =>
    edit.change.kind = .remove && edit.start ≤ offset && offset < edit.stop

/-- The tags outside what is removed, without the attributes that force an update. -/
def remainingOutlines (document : Document) : List TagOutline :=
  ((tags document).filter fun tag => !isRemoved document tag.start).map fun tag =>
    let outline := tagOutline document tag
    { outline with attributes := outline.attributes.filter fun name => name ≠ updateMethod }

/-- Whether the upgraded text has the remaining tags and no others, if both texts parse. -/
def keepsMarkup (path : String) (source : List Char) : Bool :=
  (Document.ofComponentFile? path source).all fun before =>
    ((ofDocument before).code.bind (Document.ofComponentFile? path)).all fun after =>
      tagOutlines after = remainingOutlines before

/-- An attribute with nothing between its value and the next attribute. -/
def crowdedTag : List Char :=
  "const x = <ArchbaseEdit dataSource=\x7bds\x7d required ".toList ++
    "forceUpdate=\x7btrue\x7dlabel=\"Name\" />;\n".toList

theorem crowdedTag_joined :
    ((Document.ofComponentFile? "src/App.tsx" crowdedTag).map remainingOutlines =
        some [⟨"ArchbaseEdit", ["dataSource", "required", "label"]⟩]) ∧
      (((run "src/App.tsx" crowdedTag).code.bind
          (Document.ofComponentFile? "src/App.tsx")).map tagOutlines =
        some [⟨"ArchbaseEdit", ["dataSource", "requiredlabel"]⟩]) ∧
      keepsMarkup "src/App.tsx" crowdedTag = false := by
  decide +kernel

end ComponentSurvey.DataSourceUpgrade
