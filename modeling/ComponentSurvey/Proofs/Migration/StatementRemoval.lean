import ComponentSurvey.Proofs.Migration.AttributeRemoval
import ComponentSurvey.Proofs.Migration.EditSpans

/-!
# Removing statements

A removed statement takes nothing of its neighbours along, but what stood behind it comes to stand
behind the statement before it.  That one may have ended with its line only because of how the
removed statement began.
-/

namespace ComponentSurvey

open Syntax Text

namespace DataSourceUpgrade

variable {document : Document} {imports : Imports} {site : Site} {edit : Edit}

theorem EditedAt.slice_eq (grammatical : Grammatical document.source document.root)
    (edited : EditedAt document imports edit site) :
    ∃ before behind,
      slice document.source edit.start edit.stop =
          before ++ (document.chars site.node ++ behind) ∧
        (∀ c ∈ before, isBlank c = true) ∧ ∀ c ∈ behind, isBlank c = true := by
  have frames := edited.frames grammatical
  obtain ⟨starts, stops⟩ := edited.boundaries grammatical
  have covers := edited.start_lt_stop.le
  refine ⟨slice document.source edit.start site.node.start,
    slice document.source site.node.stop edit.stop, ?_, fun c member => ?_, fun c member => ?_⟩
  · rw [Document.chars, slice_append starts stops frames.stops covers frames.le_stop,
      slice_append frames.starts starts frames.stops frames.start_le
        (covers.trans frames.le_stop)]
  · obtain ⟨place, inside, before, there⟩ :=
      exists_charAt_of_mem frames.starts starts frames.start_le member
    exact frames.before place c inside before there
  · obtain ⟨place, behind, inside, there⟩ :=
      exists_charAt_of_mem stops frames.stops frames.le_stop member
    exact frames.behind place c behind inside there

theorem lineEnds_append {blanks : List Char}
    (inLine : ∀ c ∈ blanks, isLineBlank c = true ∧ c ≠ '\n') (ending : Ending)
    (rest : List Char) :
    lineEnds ending (blanks ++ '\n' :: rest) = newLineSeparates ending rest := by
  induction blanks with
  | nil => rfl
  | cons c blanks ih =>
      obtain ⟨⟨blank, other⟩, others⟩ := List.forall_mem_cons.mp inLine
      have notBrace : c ≠ '\x7d' := by
        rintro rfl
        cases blank
      rw [List.cons_append, lineEnds, if_neg notBrace, if_neg (by simp [blank]), if_neg other,
        ih others]

theorem newLineSeparates_bracket {c : Char} (isBracket : c = '(' ∨ c = '[') (ending : Ending)
    (rest : List Char) :
    newLineSeparates ending (c :: rest) = !ending.operatorMayFollow := by
  rcases isBracket with rfl | rfl <;>
    simp [newLineSeparates, afterBlanks, isLineBlank, isAsciiBlank]

section Neighbours

variable {source front blanks : List Char}
  (before : takeBytes edit.start source = front ++ (blanks ++ ['\n']))
  (inLine : ∀ c ∈ blanks, isLineBlank c = true ∧ c ≠ '\n') (removes : edit.replacement = [])
include before inLine removes

/-- The line before a removal ended a statement if the removed text separated, and it still does if
what stands behind the removed text separates. -/
theorem lineEnds_around_removal (ending : Ending) :
    lineEnds ending (dropBytes (byteLength front) source) =
        newLineSeparates ending (dropBytes edit.start source) ∧
      lineEnds ending (dropBytes (byteLength front) (Edit.perform source [edit])) =
        newLineSeparates ending (dropBytes edit.stop source) := by
  have whole : source = front ++ (blanks ++ '\n' :: dropBytes edit.start source) := by
    conv_lhs => rw [← takeBytes_append_dropBytes edit.start source, before]
    simp
  have performed : Edit.perform source [edit] =
      front ++ (blanks ++ '\n' :: dropBytes edit.stop source) := by
    simp [Edit.perform, replaceRange, removes, before]
  constructor
  · conv_lhs => rw [whole, dropBytes_byteLength]
    exact lineEnds_append inLine _ _
  · rw [performed, dropBytes_byteLength]
    exact lineEnds_append inLine _ _

/-- An expression before a removal goes on into a bracket behind it. -/
theorem not_lineEnds_of_bracket {ending : Ending} (mayFollow : ending.operatorMayFollow = true)
    {c : Char} (isBracket : c = '(' ∨ c = '[') {rest : List Char}
    (behind : dropBytes edit.stop source = c :: rest) :
    lineEnds ending (dropBytes (byteLength front) (Edit.perform source [edit])) = false := by
  rw [(lineEnds_around_removal before inLine removes ending).2, behind,
    newLineSeparates_bracket isBracket, mayFollow]
  rfl

end Neighbours

/-- The statements of a program, a block or a case of a switch. -/
def listedStatements (list : Node) : List Node :=
  list.namedChildren.filter fun child => child.role ≠ some .value && child.kind ≠ .comment

/-- The kinds of the statements in every list that does not go, without those that go. -/
def remainingStatements (isGone : Node → Bool) (document : Document) : List (List Kind) :=
  ((document.nodes.filter isListed).filter fun list => !isGone list).map fun list =>
    ((listedStatements list).filter fun statement => !isGone statement).map Node.kind

/-- Whether the upgraded text has the remaining statements and no others, if both texts parse.
Whatever is renamed or removed inside a statement, its kind stays. -/
def keepsStatements (path : String) (source : List Char) : Bool :=
  upgradeRelates path source fun before after =>
    remainingStatements (fun _ => false) after =
      remainingStatements (fun node => isRemoved before node.start) before

def openField : List Char :=
  "const Field = ArchbaseEdit\nds.forceUpdate();\n[1, 2].forEach(log);\n".toList

/-- The statements around the removed one become one. -/
theorem openField_joined :
    (run "src/App.tsx" openField).code =
        some "const Field = ArchbaseEdit\n[1, 2].forEach(log);\n".toList ∧
      (Document.ofComponentFile? "src/App.tsx" openField).map
          (remainingStatements fun _ => false) =
        some [[.lexicalDeclaration, .expressionStatement, .expressionStatement]] ∧
      ((run "src/App.tsx" openField).code.bind (Document.ofComponentFile? "src/App.tsx")).map
          (remainingStatements fun _ => false) = some [[.lexicalDeclaration]] ∧
      keepsStatements "src/App.tsx" openField = false := by
  decide +kernel

end DataSourceUpgrade

end ComponentSurvey
