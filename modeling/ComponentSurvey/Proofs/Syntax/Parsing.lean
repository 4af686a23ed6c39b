import ComponentSurvey.Proofs.Syntax.Grammar.Statements
import ComponentSurvey.Proofs.Syntax.Walk

/-!
# Parsed documents are grammatical

One more level on top of a sound grammar is sound, so that every depth of the grammar is.  Putting
the comments back into the tree that was read only adds parts that nothing is promised of.
-/

namespace ComponentSurvey.Syntax

open Text Reader

namespace Grammar

variable {text : List Char} {low : Nat} {g : Grammar}

theorem Sound.step (sound : g.Sound text) : g.step.Sound text where
  operation := sound.anyOperation
  typeOperation := sound.anyType
  pattern := sound.anyPattern
  element := sound.anyElement
  statement := sound.anyStatement
  declaration := sound.anyDeclaration

theorem sound_ofDepth (text : List Char) (depth : Nat) : (ofDepth depth).Sound text := by
  induction depth with
  | zero => exact sound_empty text
  | succ depth ih => exact ih.step

end Grammar

namespace Reads

variable {text : List Char} {low : Nat}

theorem hashBang : Yields text low (Plains text) hashBang :=
  .atStart fun _ _ starts => .pass (.immediate (.ite (.splitCount _))) fun _ =>
  .bind .stop fun _ stops => .done (.one (Token.plain ⟨rfl, rfl, starts, stops.1, nofun⟩ rfl))

theorem program {g : Grammar} (sound : g.Sound text) :
    Yields text low (Grammatical text) (program g) :=
  .bind (.optionally .hashBang) fun _ first =>
  .bind (.many sound.inner) fun _ statements =>
  .pass .opening fun _ =>
  .bind .get fun _ stands => .ite
    (.done (Spanned.of_compound rfl (Nat.zero_le _) (isBoundary_zero text) stands.boundary
      (Nat.le_refl _) (List.forall_mem_append.mpr ⟨first.inner, statements⟩)).grammatical)
    .refuse

end Reads

variable {text : List Char} {kind : Kind} {start stop : Nat} {parts merged : List Node}

structure IsComment (text : List Char) (comment : Node) : Prop where
  grammatical : Grammatical text comment
  isMinor : comment.kind.isMinor = true
  roleless : comment.role = none

theorem IsComment.not_openEnded {comment : Node} (isComment : IsComment text comment) :
    ¬ comment.kind.isOpenEnded = true := by
  have isMinor := isComment.isMinor
  cases kind : comment.kind <;> simp_all [Kind.isMinor, Kind.isOpenEnded]

structure Replaces (old node : Node) : Prop where
  kind : node.kind = old.kind
  role : node.role = old.role
  start : node.start = old.start
  stop : node.stop = old.stop

theorem replaces_withComments (node : Node) (comments : List Node) :
    Replaces node (node.withComments comments) := by
  cases node
  exact ⟨rfl, rfl, rfl, rfl⟩

theorem splitComments_fst_subset (offset : Nat) (comments : List Node) :
    (splitComments offset comments).1 ⊆ comments :=
  (List.takeWhile_prefix _).subset

theorem splitComments_snd_subset (offset : Nat) (comments : List Node) :
    (splitComments offset comments).2 ⊆ comments :=
  (List.dropWhile_suffix _).subset

theorem mem_mergeComments {comments nodes : List Node} {node : Node}
    (member : node ∈ Node.mergeComments comments nodes) :
    node ∈ comments ∨
      ∃ old ∈ nodes, ∃ inside ⊆ comments, node = old.withComments inside := by
  induction nodes generalizing comments with
  | nil => exact .inl member
  | cons first rest ih =>
      have taken := splitComments_fst_subset
      have dropped := splitComments_snd_subset
      simp only [Node.mergeComments, List.mem_append, List.mem_cons] at member
      rcases member with before | rfl | later
      · exact .inl (taken _ _ before)
      · exact .inr ⟨first, List.mem_cons_self, _, List.Subset.trans (taken _ _) (dropped _ _), rfl⟩
      · refine (ih later).imp (fun listed => dropped _ _ (dropped _ _ listed)) ?_
        rintro ⟨old, member, inside, within, same⟩
        exact ⟨old, List.mem_cons_of_mem _ member, inside,
          List.Subset.trans within (List.Subset.trans (dropped _ _) (dropped _ _)), same⟩

theorem Production.replaced (production : Production text kind start stop parts)
    (each : ∀ part ∈ merged, IsComment text part ∨ ∃ old ∈ parts, Replaces old part) :
    Production text kind start stop merged where
  starts := production.starts
  stops := production.stops
  covers := production.covers
  delimited := production.delimited
  single isName part member := by
    obtain comment | ⟨old, listed, same⟩ := each part member
    · exact comment.isMinor
    · exact same.kind ▸ production.single isName old listed
  named role named part member hasRole := by
    obtain comment | ⟨old, listed, same⟩ := each part member
    · exact absurd (comment.roleless.symm.trans hasRole) (by simp)
    · exact same.kind ▸ production.named role named old listed (same.role ▸ hasRole)
  tagged part member isAttribute := by
    obtain comment | ⟨old, listed, same⟩ := each part member
    · have isMinor := comment.isMinor
      rw [isAttribute] at isMinor
      cases isMinor
    · have ⟨behind, closed⟩ := production.tagged old listed (same.kind ▸ isAttribute)
      refine ⟨same.start ▸ behind, fun other otherMember => ?_⟩
      obtain comment | ⟨oldOther, oldListed, sameOther⟩ := each other otherMember
      · exact comment.not_openEnded
      · exact sameOther.kind ▸ closed oldOther oldListed
  nested part member isOpenEnded := by
    obtain comment | ⟨old, listed, same⟩ := each part member
    · exact absurd isOpenEnded comment.not_openEnded
    · rw [same.start, same.stop]
      exact production.nested old listed (same.kind ▸ isOpenEnded)
  opened opensTag part member := by
    obtain comment | ⟨old, listed, same⟩ := each part member
    · exact .inl comment.isMinor
    · rw [same.kind, same.start]
      exact production.opened opensTag old listed

theorem Grammatical.withComments {node : Node} (grammatical : Grammatical text node)
    {comments : List Node} (each : ∀ comment ∈ comments, IsComment text comment) :
    Grammatical text (node.withComments comments) := by
  induction grammatical generalizing comments with
  | @mk kind role start stop parts production within ih =>
      refine .mk (production.replaced fun part member => ?_) fun part member => ?_
      · refine (mem_mergeComments member).imp (each part) ?_
        rintro ⟨old, listed, inside, -, rfl⟩
        exact ⟨old, listed, replaces_withComments old inside⟩
      · rcases mem_mergeComments member with listed | ⟨old, listed, inside, among, rfl⟩
        · exact (each part listed).grammatical
        · exact ih old listed fun comment member => each comment (among member)

theorem grammatical_of_readProgram {dialect : Dialect} {root : Node}
    (found : readProgram dialect text = some root) : Grammatical text root := by
  rw [readProgram] at found
  split at found
  · cases found
  · dsimp only at found
    split at found
    · cases found
    · rename_i tree after answered
      cases found
      have starts : Input.Stands text 0 ⟨text, 0, [], dialect, false, false⟩ :=
        ⟨⟨[], rfl, rfl⟩, Nat.le_refl 0, fun _ member => nomatch member⟩
      obtain ⟨behind, grammatical⟩ :=
        Reads.program (Grammar.sound_ofDepth text _) _ starts tree after answered
      refine grammatical.withComments fun comment member => ?_
      obtain ⟨kind, isMinor, roleless, token⟩ :=
        behind.comments comment (List.mem_reverse.mp member)
      exact ⟨(token.plain (Kind.isBare_of_isMinor isMinor)).grammatical, token.hasKind ▸ isMinor,
        roleless⟩

namespace Document

variable {path : String} {source : List Char} {document : Document}

theorem source_of_ofComponentFile? (found : ofComponentFile? path source = some document) :
    document.source = source := by
  obtain ⟨root, read, found⟩ := Option.bind_eq_some_iff.mp found
  split at found
  · cases found
    rfl
  · cases found

theorem grammatical_of_parse? {dialect : Dialect}
    (found : parse? dialect path source = some document) :
    Grammatical document.source document.root := by
  obtain ⟨root, read, found⟩ := Option.bind_eq_some_iff.mp found
  split at found
  · cases found
    exact grammatical_of_readProgram read
  · cases found

theorem grammatical_of_ofComponentFile? (found : ofComponentFile? path source = some document) :
    Grammatical document.source document.root :=
  grammatical_of_parse? found

end Document

end ComponentSurvey.Syntax
