import ComponentSurvey.Proofs.Syntax.Grammar.Functions
import ComponentSurvey.Syntax.Grammar.Classes

/-!
# Classes are plain

No member of a class is a statement or an attribute.
-/

namespace ComponentSurvey.Syntax

open Text Reader Grammar

namespace Reads

variable {text : List Char} {low : Nat}

theorem memberModifiers (fuel : Nat) (words : List String) :
    Yields text low (fun found => Plains text found.2) (memberModifiers fuel words) := by
  induction fuel generalizing low words with
  | zero => exact .done .nil
  | succ fuel ih =>
      refine .atStart fun first _ starts => ?_
      refine .pass (.findM? fun _ => .ite (.skipIf (.keyword _)) (.done trivial)) fun found => ?_
      cases found with
      | some word => exact ih _
      | none =>
          refine .pass (.findM? (.modifier _)) fun found => ?_
          cases found with
          | none => exact .pass (.skipIf (.mark _)) fun _ => .done (by split <;> exact .nil)
          | some word =>
              refine .bind .stop fun stop stops => .bind (ih _) fun _ others => .done ?_
              have span {kind : Kind} (isBare : kind.isBare = true)
                  (other : kind.isName = false) : Plains text [.mk kind none first stop []] :=
                .one (Token.plain
                  ⟨rfl, rfl, starts, stops.1, fun isName => nomatch other.symm.trans isName⟩
                  isBare)
              refine .append ?_ others
              split
              · exact span rfl rfl
              · split
                · exact span rfl rfl
                · exact .nil

theorem memberEnd (ending : Ending) : Passes text low (memberEnd ending) :=
  .either (.mark _) <| .only (.semicolon _)

end Reads

namespace Grammar.Sound

variable {text : List Char} {low : Nat} {g : Grammar} (sound : g.Sound text)
include sound

theorem classField {first : Nat} (starts : IsBoundary text first) {head : List Node}
    (headed : Plains text head) : Yields text low (Plain text) (g.classField first head) :=
  .bind (.optionally (.single (sound.typeAscription _))) fun _ type =>
  .bind (.optionally (.single (sound.initializer _))) fun _ value =>
  .bind .stop fun _ stops =>
  .pass (.memberEnd _) fun _ =>
  .done (.of_ordinary rfl starts stops.1 ((headed.append type).append value))

theorem classMethod (words : List String) {first : Nat} (starts : IsBoundary text first)
    {head : List Node} (headed : Plains text head) :
    Yields text low (Plain text) (g.classMethod words first head) :=
  .bind (sound.signature _) fun _ signature =>
  .pass (.look (.nextIs _)) fun _ =>
  .ite
    (.guard <|
      .bind (.inRole _ (sound.statementBlock _)) fun _ body =>
      .bind .stop fun _ stops =>
      .pass (.maybe (.semicolon _)) fun _ =>
      .done (.of_ordinary rfl starts stops.1 ((headed.append signature).append (.one body)))) <|
  .guard <|
    .bind .stop fun _ stops =>
    .pass (.memberEnd _) fun _ =>
    .done (.of_ordinary (Kind.isOrdinary_ite rfl rfl) starts stops.1 (headed.append signature))

theorem namedMember {outer : Nat} (outerStarts : IsBoundary text outer) {decorators : List Node}
    (decorated : Plains text decorators) :
    Yields text low (Plains text) (g.namedMember outer decorators) :=
  .atStart fun _ _ starts =>
  .pass (.look .fuel) fun _ =>
  .bind (.memberModifiers _ _) fun _ modifiers =>
  .bind (.inRole _ sound.propertyName) fun _ name =>
  .bind (.optionally (.single .optionalMarkNode)) fun _ optionalNode =>
  have head := modifiers.append (.cons name optionalNode)
  .join (.look (.endsHere _)) (.look (.pure _)) fun _ _ =>
  .pass (.look (.nextIs _)) fun _ => .pass (.look (.nextIs _)) fun _ =>
  .ite
    (.bind (sound.classMethod _ starts head) fun _ method => .guard <|
      .done (decorated.append (.one method))) <|
  have field {low : Nat} : Yields text low (Plains text) _ :=
    .single (sound.classField outerStarts (decorated.append head))
  .guard <| .ite (.pass (.skipIf (.exactly _)) fun _ => field) field

theorem staticBlock : Yields text low (Plain text) g.staticBlock :=
  .node rfl <|
    .pass (.keyword _) fun _ =>
    .pass (.look (.endsHere _)) fun _ => .guard <|
    .bind (sound.statementBlock _) fun _ body => .done (.one (body.withRole _))

theorem classIndex : Yields text low (Plain text) g.classIndex :=
  .bind (sound.indexSignature _) fun _ member => .pass (.memberEnd _) fun _ => .done member

theorem classMember : Yields text low (Plains text) g.classMember :=
  .atStart fun _ _ starts =>
  .bind (.manyPlain sound.decorator) fun _ decorators =>
  .ite (sound.namedMember starts decorators) <|
  .pass (.look (.nextIs _)) fun _ =>
  .ite (.pass (.mark _) fun _ => .done .nil) <|
  .either (.single sound.staticBlock) <| .either (.single sound.classIndex) <|
  .only (sound.namedMember starts .nil)

theorem classBody : Yields text low (Plain text) g.classBody :=
  .node rfl <|
    .pass (.mark _) fun _ =>
    .bind (.many sound.classMember) fun _ members =>
    .pass (.mark _) fun _ => .done (.flatten members)

theorem classHeritage : Yields text low (Plains text) g.classHeritage :=
  have base {low : Nat} : Yields text low (Plains text) (do
      let value ← Reader.inRole .value (g.operation .heritage .never)
      return value :: (← Reader.optionally (Reader.single g.typeArguments))) :=
    .bind (.inRole _ (sound.operation _ _)) fun _ value =>
    .bind (.optionally (.single sound.typeArguments)) fun _ types => .done (.cons value types)
  .atStart fun _ _ starts =>
  .bind (.optionally <| .single <| .node rfl <|
    .pass (.keyword _) fun _ => .bind base fun _ first =>
    .bind (.many <| .pass (.mark _) fun _ => base) fun _ others =>
    .done (first.append (.flatten others))) fun _ extending =>
  .bind (.optionally <| .single <| .node rfl <|
    .pass (.keyword _) fun _ => .commaSeparated (sound.type _)) fun _ implementing =>
  .ite (.done .nil) <|
  .bind .stop fun _ stops =>
  .done (.one (.of_ordinary rfl starts stops.1 (extending.append implementing)))

theorem classTail (hasName : Bool) : Yields text low (Plains text) (g.classTail hasName) :=
  .pass (.keyword _) fun _ =>
  .bind (.optionally <| .pass (.look .wordAhead) fun _ => .guard <|
    .single (.inRole _ (.token rfl (.named _)))) fun _ name =>
  .bind (.optionally (.single sound.typeParameters)) fun _ types =>
  .bind sound.classHeritage fun _ heritage =>
  .bind (.inRole _ sound.classBody) fun _ body =>
  .done (((name.append types).append heritage).append (.one body))

theorem classExpression : Yields text low (Plain text) g.classExpression :=
  .node rfl <|
    .bind (.manyPlain sound.decorator) fun _ decorators =>
    .bind (sound.classTail _) fun _ parts => .done (decorators.append parts)

end Grammar.Sound

end ComponentSurvey.Syntax
