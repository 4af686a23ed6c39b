import ComponentSurvey.Proofs.Syntax.Grammar.Types
import ComponentSurvey.Syntax.Grammar.Functions

/-!
# Blocks and functions are plain

A block keeps its statements between braces, so that outside it stands among other nodes like any
expression.
-/

namespace ComponentSurvey.Syntax

open Text Reader Grammar

theorem Spanned.widen {text : List Char} {lower low high higher : Nat} {node : Node}
    (before : lower ≤ low) (behind : high ≤ higher) (spanned : Spanned text low node high) :
    Spanned text lower node higher :=
  ⟨spanned.grammatical, spanned.not_attribute, before.trans spanned.low_le,
    spanned.le_high.trans behind⟩

namespace Reads

variable {text : List Char} {low : Nat}

theorem objectOrBlock (g : Grammar) {post : Node → Nat → Prop} {object block : Reader Node}
    (objects : Reads text low post object) (blocks : Reads text low post block) :
    Reads text low post (g.objectOrBlock object block) :=
  .after (.bind (.test _) fun _ => .bind (.test _) fun _ => .pure _) fun _ =>
  .ite blocks <|
  .after (.test _) fun _ =>
  .ite (.either blocks <| .only (.havingRefused _ objects)) (.either objects <| .only blocks)

theorem braced {reader : Reader Node} {closing : Reader Unit}
    (reads : ∀ {low}, Reads text low (Spanned text low) reader)
    (closes : ∀ {low}, Passes text low closing) : Reads text low (Braced text low) (do
      Reader.mark "\x7b"
      let nodes ← Reader.many reader
      closing
      Reader.mark "\x7d"
      return nodes) := by
  refine .bind (.mark_at rfl) fun _ ⟨_, opened, before, _⟩ => ?_
  refine .bind (.many_within reads Spanned.widen) fun _ each => ?_
  refine .bind_le closes fun _ later _ => ?_
  refine .bind (.mark_at rfl) fun _ ⟨brace, closed, behind, there⟩ => ?_
  refine .pure fun _ after part member => ?_
  have spanned := each part member
  exact ⟨spanned.grammatical, spanned.not_attribute,
    (opened.trans_lt before).trans_le spanned.low_le, brace,
    (spanned.le_high.trans later).trans closed, behind.trans_le after, there⟩

theorem functionHead : Yields text low (fun found => Plains text found.2) functionHead :=
  .pass (.skipIf (.keyword _)) fun _ =>
  .pass (.keyword _) fun _ =>
  .pass (.skipIf (.mark _)) fun _ =>
  .bind (.optionally (.single (.inRole _ (.token rfl (.named _))))) fun _ name => .done name

end Reads

namespace Grammar.Sound

variable {text : List Char} {low : Nat} {g : Grammar} (sound : g.Sound text)
include sound

theorem blockStatements : Reads text low (Braced text low) g.blockStatements :=
  .braced sound.statement .opening

theorem statementBlock (ending : Ending) :
    Yields text low (Plain text) (g.statementBlock ending) :=
  .nodeOfBraced rfl <|
    .bind sound.blockStatements fun _ parts =>
    .bind_le (.closedLine _) fun _ later _ => .pure fun _ last =>
    parts.widen (later.trans last)

theorem arrowBody (ending : Ending) : Yields text low (Plain text) (g.arrowBody ending) :=
  .pass (.look (.test _)) fun _ =>
  .pass (.look (.nextIs _)) fun _ =>
  .ite (.objectOrBlock g (sound.expression _) (sound.statementBlock _)) (sound.expression _)

theorem arrowParameters (ending : Ending) :
    Yields text low (Plains text) (g.arrowParameters ending) :=
  .bind (.optionally (.single sound.typeParameters)) fun _ types =>
  .bind sound.formalParameters fun _ parameters =>
  .ite (.done (types.append (.one parameters))) <|
  .bind (.optionally (.single (sound.resultAscription _))) fun _ result =>
  .done (types.append (.cons parameters result))

theorem arrowFunction (ending : Ending) : Yields text low (Plain text) (g.arrowFunction ending) :=
  have next {low : Nat} : Yields text low (Plains text) _ :=
    .pass (.look .wordAhead) fun _ =>
    .join (sound.arrowParameters _) (.single (.token rfl (.named _))) fun _ parameters =>
    .pass (.exactly _) fun _ =>
    .bind (.havingRefused _ (sound.arrowBody _)) fun _ body =>
    .done (parameters.append (.one (body.withRole _)))
  .node rfl <|
    .pass (.look (.wordIs _)) fun _ => .pass (.look .afterWord) fun _ =>
    .ite (.pass (.keyword _) fun _ => .pass (.look (.endsHere _)) fun _ =>
      .pass (.look .wordAhead) fun _ => .guard next) next

theorem functionExpression : Yields text low (Plain text) g.functionExpression :=
  .atStart fun _ _ starts =>
  .bind .functionHead fun _ name =>
  .bind (sound.signature _) fun _ signature =>
  .bind (.inRole _ (sound.statementBlock _)) fun _ body =>
  .bind .stop fun _ stops =>
  .done <| .of_ordinary (Kind.isOrdinary_ite rfl rfl) starts stops.1
    ((name.append signature).append (.one body))

end Grammar.Sound

end ComponentSurvey.Syntax
