import ComponentSurvey.Proofs.Syntax.Grammar.Types
import ComponentSurvey.Syntax.Grammar.Markup

/-!
# Elements are plain

Attributes stand in tags only, and whatever a tag holds stands behind the bracket that opens it.
-/

namespace ComponentSurvey.Syntax

open Text Reader Grammar

structure HeadPart (text : List Char) (low : Nat) (part : Node) : Prop where
  grammatical : Grammatical text part
  closed : part.kind.isOpenEnded = false
  behind : low ≤ part.start

theorem HeadPart.widen {text : List Char} {lower low : Nat} {part : Node} (before : lower ≤ low)
    (head : HeadPart text low part) : HeadPart text lower part :=
  { head with behind := before.trans head.behind }

theorem Plain.headPart {text : List Char} {low : Nat} {part : Node} (plain : Plain text part)
    (behind : low ≤ part.start) : HeadPart text low part :=
  ⟨plain.grammatical, by simpa using plain.not_openEnded, behind⟩

theorem start_leading (path : Node) :
    (if path.kind = .nestedIdentifier then path.withKind .memberExpression else path).start =
      path.start := by
  cases path
  split <;> rfl

theorem start_of_nestedName {first path : Node} {input after : Input}
    (found : nestedName first input = some (path, after)) : path.start = first.start := by
  obtain ⟨⟨names, between⟩, -, same⟩ := Option.bind_eq_some_iff.mp found
  cases same
  suffices starts : ∀ (names : List Node) (path : Node), path.start = first.start →
      (names.foldl (fun path part =>
        .mk .nestedIdentifier none first.start part.stop
          [(if path.kind = .nestedIdentifier then path.withKind .memberExpression
            else path).withRole .object, part]) path).start = first.start from
    starts names first rfl
  intro names
  induction names with
  | nil => exact fun _ same => same
  | cons name names ih => exact fun _ _ => ih _ rfl

namespace Reads

variable {text : List Char} {low : Nat}

theorem markupName {kind : Kind} (isBare : kind.isBare = true) (isName : kind.isName = true) :
    Yields text low (fun name => Plain text name ∧ low ≤ name.start) (markupName kind) :=
  .bind (.leaf_behind (.nameLeaf kind .scanMarkupName .scanMarkupName)) fun _ ⟨first, behind⟩ =>
  .pass (.look (.operatorIs _)) fun _ =>
  .ite ((nodeAfter_start <| .nodeAfter rfl ((first.withKind isName .identifier).plain rfl) <|
      .pass (.mark _) fun _ => .bind (.nameLeaf _ .scanMarkupName .scanMarkupName) fun _ second =>
      .done (.one (second.plain rfl))).weaken fun _ _ _ ⟨plain, same⟩ => ⟨plain, same ▸ behind⟩)
    (.done ⟨first.plain isBare, behind⟩)

theorem nestedNameFrom {first : Node} (plain : Plain text first) :
    Yields text low (fun path => Plain text path ∧ path.start = first.start)
      (Grammar.nestedName first) :=
  .and (.nestedName plain) fun _ _ _ _ found => start_of_nestedName found

theorem tagName :
    Yields text low (fun found => Plain text found.1 ∧ low ≤ found.1.start) tagName :=
  .after (.test _) fun _ =>
  .bind (.markupName rfl rfl) fun _ ⟨first, behind⟩ =>
  .ite
    (.bind (nestedNameFrom first) fun path ⟨plain, same⟩ =>
      .done ⟨plain.leading, by rwa [start_leading, same]⟩)
    (.done ⟨first, behind⟩)

theorem closingElement : Yields text low (Plain text) closingElement :=
  .node rfl <|
    .pass (.mark _) fun _ =>
    .bind (.optionally <| .single <| .inRole _ <| .map tagName fun _ _ _ name => name.1)
      fun _ name =>
    .pass (.mark _) fun _ => .done name

theorem referenceChild : Yields text low (Plain text) referenceChild :=
  .bind .stop fun _ starts =>
  .pass (.immediate fun text passed rest matched => by
    obtain ⟨count, -, matched⟩ := Option.bind_eq_some_iff.mp matched
    exact append_of_splitCount matched) fun _ =>
  .bind .stop fun _ stops => .done (.of_ordinary rfl starts.1 stops.1 .nil)

end Reads

namespace Grammar.Sound

variable {text : List Char} {low : Nat} {g : Grammar} (sound : g.Sound text)
include sound

theorem commaExpression (ending : Ending) :
    Yields text low (Plain text) (g.commaExpression ending) :=
  .bind (sound.expression _) fun _ first =>
  .bind (.manyPlain <| .pass (.look (.endsHere _)) fun _ => .guard <|
    .pass (.exactly _) fun _ => sound.expression _) fun _ others =>
  .ite (.done first) <|
  .bind .stop fun _ stops => .done (.of_ordinary rfl first.starts stops.1 (.cons first others))

theorem embeddedExpression : Yields text low (Plain text) g.embeddedExpression :=
  .node rfl <|
    .pass (.mark _) fun _ =>
    .bind (.optionally <| .single <| .either (sound.spread _) <| .only (sound.commaExpression _))
      fun _ inner =>
    .pass (.mark _) fun _ => .done inner

theorem tagAttribute :
    Yields text low (fun node => Grammatical text node ∧ node.kind = .jsxAttribute)
      g.tagAttribute :=
  .nodeOfFree rfl <|
    .bind (.markupName rfl rfl) fun _ ⟨name, _⟩ =>
    .bind (.optionally <| .pass (.exactly _) fun _ => .single <|
      .either ((Reads.stringLeaf .scanAttributeString .scanAttributeString).weaken
        fun _ _ _ literal => literal.plain) <| .either sound.embeddedExpression <|
      .only sound.element) fun _ value =>
    .done (.cons name value)

theorem tagHead : Reads text low (fun parts _ => ∀ part ∈ parts, HeadPart text low part)
    g.tagHead := by
  have headPart {low : Nat} : Reads text low (fun part _ => HeadPart text low part)
      (Reader.firstOf [g.tagAttribute, g.embeddedExpression]) :=
    .either (sound.tagAttribute.spanned.weaken fun _ _ _ ⟨⟨grammatical, isAttribute⟩, behind, _⟩ =>
      ⟨grammatical, by rw [isAttribute]; rfl, behind⟩) <|
    .only (sound.embeddedExpression.spanned.weaken fun _ _ _ ⟨plain, behind, _⟩ =>
      plain.headPart behind)
  have types {low : Nat} : Yields text low (fun parts => ∀ part ∈ parts, HeadPart text low part)
      (Reader.optionally (Reader.single g.typeArguments)) :=
    .optionallyAll <| .bind sound.typeArguments.spanned fun _ ⟨plain, behind, _⟩ =>
      .done (List.forall_mem_singleton.mpr (plain.headPart behind))
  refine .bind_le .tagName fun found afterName ⟨name, behind⟩ => ?_
  refine .join_le types (.done fun _ member => nomatch member) fun types afterTypes head => ?_
  refine .bind (.many_within headPart fun before _ => HeadPart.widen before)
    fun _ attributes => .done ?_
  refine List.forall_mem_append.mpr ⟨List.forall_mem_cons.mpr ⟨?_, fun part member => ?_⟩,
    fun part member => ?_⟩
  · exact (name.withRole _).headPart behind
  · exact (head part member).widen afterName
  · exact (attributes part member).widen (afterName.trans afterTypes)

theorem markupChild : Yields text low (Plains text) g.markupChild := by
  have textRun {low : Nat} : Passes text low textRun :=
    .pass (.immediate (.splitCount _)) fun _ => .done trivial
  refine .pass .get fun _ => .ite (.pass .opening fun _ => .done .nil) ?_
  split
  · exact .guard (.single sound.element)
  · exact .single sound.embeddedExpression
  · exact .single .referenceChild
  · exact .pass textRun fun _ => .done .nil

theorem anyElement : Yields text low (Plain text) g.anyElement := by
  refine .atStart fun _ _ starts => ?_
  refine .bind (.mark_at rfl) fun _ ⟨bracket, behind, before, there⟩ => ?_
  refine .bind (.optionallyAll sound.tagHead) fun head parts => ?_
  have parts : ∀ part ∈ head, TagPart text _ part := fun part member =>
    have ⟨grammatical, closed, later⟩ := parts part member
    ⟨grammatical, closed, bracket, behind, before.trans_le later, there⟩
  refine .pass (.skipIf (.mark _)) fun _ =>
    .ite (.bind .stop fun _ stops => .done (.of_tag rfl starts stops.1 parts)) ?_
  exact .pass (.mark _) fun _ => .bind .stop fun _ stops =>
    .bind (.many sound.markupChild) fun _ children =>
    .bind .closingElement fun _ closing => .bind .stop fun _ ends =>
    .done (.of_ordinary rfl starts ends.1
      (.append (.cons (.of_tag rfl starts stops.1 parts) (.flatten children)) (.one closing)))

end Grammar.Sound

end ComponentSurvey.Syntax
