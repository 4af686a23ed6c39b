import ComponentSurvey.Proofs.Syntax.Grammar.Basic
import ComponentSurvey.Syntax.Grammar.Patterns

/-!
# Patterns are plain

No pattern and no place that a value is put into is a statement or an attribute.
-/

namespace ComponentSurvey.Syntax

open Text Reader Grammar

theorem Looks.beginsPlace : Looks beginsPlace :=
  .bind .ahead fun _ => .bind .wordAhead fun _ =>
  .ite (.bind .get fun _ => .pure _) (.bind .afterWord fun _ => .pure _)

theorem Looks.placeContinues : Looks placeContinues := .bind .operator fun _ => .pure _

namespace Grammar.Sound

variable {text : List Char} {low : Nat} {g : Grammar} (sound : g.Sound text)
include sound

theorem withDefault {target : Reader Node} (reads : ∀ {low}, Yields text low (Plain text) target) :
    Yields text low (Plain text) (g.withDefault target) :=
  .bind reads fun _ left =>
  .pass (.look (.operatorIs _)) fun _ =>
  .ite (.nodeAfter rfl left <| .pass (.mark _) fun _ =>
    .bind (sound.expression _) fun _ value => .done (.one value)) (.done left)

theorem restTarget : Yields text low (Plain text) g.restTarget :=
  .node rfl <|
    .pass (.mark _) fun _ => .bind sound.pattern fun _ pattern => .done (.one pattern)

theorem arrayPattern : Yields text low (Plain text) g.arrayPattern :=
  .node rfl <|
    .pass (.mark _) fun _ =>
    .bind (.commaList <| .either sound.restTarget <| .only (sound.withDefault sound.pattern))
      fun _ items =>
    .pass (.mark _) fun _ => .done items

theorem propertyPattern : Yields text low (Plain text) g.propertyPattern :=
  .atStart fun _ _ starts =>
  .either
    (.bind sound.propertyName fun _ key =>
      .pass (.exactly _) fun _ =>
      .bind (.inRole _ <| .either sound.restTarget <| .only (sound.withDefault sound.pattern))
        fun _ value =>
      .bind .stop fun _ stops =>
      .done (.of_ordinary rfl starts stops.1 (.two (key.withRole _) value))) <|
  .either
    (.bind (.token rfl (.named _)) fun _ key =>
      .pass (.look (.operatorIs _)) fun _ =>
      .ite (.nodeAfter rfl key <| .pass (.mark _) fun _ =>
        .bind (sound.expression _) fun _ value => .done (.one value)) (.done key)) <|
  .only <|
    .bind sound.pattern fun _ left => .guard <|
    .nodeAfter rfl left <| .pass (.exactly _) fun _ =>
      .bind (sound.expression _) fun _ value => .done (.one value)

theorem objectPattern : Yields text low (Plain text) g.objectPattern :=
  .node rfl <|
    .pass (.mark _) fun _ =>
    .bind (.commaList <| .either sound.restTarget <| .only sound.propertyPattern) fun _ items =>
    .pass (.mark _) fun _ => .done items

theorem destructuring : Yields text low (Plain text) g.destructuring := by
  refine .pass (.look .ahead) fun _ => ?_
  split
  · exact sound.objectPattern
  · exact sound.arrayPattern
  · exact .refuse

theorem bindingTarget : Yields text low (Plain text) g.bindingTarget :=
  .either sound.destructuring <| .only <| .token rfl (.named _)

theorem place : Yields text low (Plain text) g.place :=
  .bind (sound.operation _ _) fun _ place => .ite (.done place) .refuse

theorem anyPattern : Yields text low (Plain text) g.anyPattern :=
  .pass (.look (.nextIs _)) fun _ => .pass (.look (.nextIs _)) fun _ =>
  .ite
    (.bind_back .get fun _ before => .bind_back sound.destructuring fun _ pattern =>
      .bind_back (.look .placeContinues) fun _ _ =>
      .ite (.pass (.set before) fun _ => sound.place) (.done pattern)) <|
  .pass (.look .beginsPlace) fun _ => .ite sound.place .refuse

end Grammar.Sound

end ComponentSurvey.Syntax
