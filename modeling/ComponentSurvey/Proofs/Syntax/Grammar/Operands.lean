import ComponentSurvey.Proofs.Syntax.Grammar.Classes
import ComponentSurvey.Proofs.Syntax.Grammar.Markup
import ComponentSurvey.Proofs.Syntax.Grammar.Patterns
import ComponentSurvey.Syntax.Grammar.Operands

/-!
# Operands are plain

Nothing that an expression begins with is a statement or an attribute.
-/

namespace ComponentSurvey.Syntax

open Text Reader Grammar

theorem Looks.beginsOperand : Looks beginsOperand :=
  .bind .ahead fun _ => .bind .wordAhead fun _ => .pure _

theorem Looks.moduleFollows (ending : Ending) (others : List String) :
    Looks (moduleFollows ending others) :=
  .bind (.test _) fun _ => .bind (.test _) fun _ => .pure _

theorem isBare_of_wordLiteral {word : List Char} {kind : Kind}
    (found : wordLiteral word = some kind) : kind.isBare = true := by
  unfold wordLiteral at found
  repeat' split at found
  all_goals cases found
  all_goals rfl

namespace Reads

variable {text : List Char} {low : Nat}

theorem literalOrTarget {literal pattern : Reader Node}
    (literals : ∀ {low}, Yields text low (Plain text) literal)
    (patterns : ∀ {low}, Yields text low (Plain text) pattern) :
    Yields text low (Plain text) (literalOrTarget literal pattern) := by
  refine .bind_back .get fun before stands => ?_
  refine .bind_back (.optional? literals) fun found plain => ?_
  have target {low : Nat} : Yields text low (Plain text) (do
      let target ← Reader.havingRefused found.isNone pattern
      if ← operatorIs "=" then return target else Reader.refuse) :=
    .bind (.havingRefused _ patterns) fun _ target =>
    .pass (.look (.operatorIs _)) fun _ => .ite (.done target) .refuse
  refine .bind_back (.look (.operatorIs _)) fun _ _ => .ite ?_ (.pass (.set stands) fun _ => target)
  cases found with
  | none => exact .refuse
  | some found => exact .done (plain found rfl)

theorem memberName (operator : String) : Yields text low (Named text) (memberName operator) :=
  .pass (.exactly _) fun _ => .nameInRole _ <|
    .either (.name rfl (.named _)) <| .only <| .name rfl (.leaf _ .scanPrivateName rfl)

theorem memberAfter (operator : String) {left : Node} (plain : Plain text left) :
    Yields text low (Plain text) (Reader.nodeAfter .memberExpression (left.withRole .object)
      (Reader.single (Grammar.memberName operator))) := by
  have only : Yields text low (fun nodes => ∃ name, nodes = [name] ∧ Named text name)
      (Reader.single (Grammar.memberName operator)) :=
    .bind (.memberName operator) fun name named => .done ⟨name, rfl, named⟩
  refine .bind only fun nodes ⟨name, same, named⟩ => .bind .stop fun _ stops => .done ?_
  exact same ▸ .of_path rfl (by decide) plain named plain.starts stops.1

end Reads

namespace Grammar.Sound

variable {text : List Char} {low : Nat} {g : Grammar} (sound : g.Sound text)
include sound

theorem objectMember : Yields text low (Plain text) g.objectMember :=
  .atStart fun _ _ starts =>
  .bind (.propertyModifiers _) fun _ modifiers =>
  .pass (.methodModifiers _) fun _ =>
  .pass .stop fun _ =>
  .bind sound.propertyName fun name plain =>
  .bind (.optionally (.single .optionalMarkNode)) fun _ optionalNode =>
  .pass (.look (.nextIs _)) fun _ => .pass (.look (.nextIs _)) fun _ =>
  .ite
    (.bind (sound.signature _) fun _ signature =>
      .bind (.inRole _ (sound.statementBlock _)) fun _ body =>
      .bind .stop fun _ stops =>
      .done (.of_ordinary rfl starts stops.1 (((modifiers.append
        (.cons (plain.withRole _) optionalNode)).append signature).append (.one body)))) <|
  .ite .refuse <|
  .pass (.look (.operatorIs _)) fun _ =>
  .ite
    (.pass (.mark _) fun _ =>
      .bind (.inRole _ (sound.expression _)) fun _ value =>
      .bind .stop fun _ stops =>
      .done (.of_ordinary rfl starts stops.1 (.two (plain.withRole _) value))) <| by
  split
  · rename_i isName
    exact .done (.withKind_of_named ⟨plain, by rw [isName]; rfl⟩ rfl)
  · exact .refuse

theorem objectLiteral : Yields text low (Plain text) g.objectLiteral :=
  .node rfl <|
    .pass (.mark _) fun _ =>
    .bind (.commaList <| .either (sound.spread _) <| .only sound.objectMember) fun _ members =>
    .pass (.mark _) fun _ => .done members

theorem arrayLiteral : Yields text low (Plain text) g.arrayLiteral :=
  have item {low : Nat} {ending : Ending} :
      Yields text low (Plain text) (Reader.firstOf [g.spread ending, g.expression ending]) :=
    .either (sound.spread _) <| .only (sound.expression _)
  .node rfl <|
    .pass (.mark _) fun _ =>
    .bind (.commaListFrom item item) fun _ items =>
    .pass (.mark _) fun _ => .done items

theorem parenthesized (ending : Ending) : Yields text low (Plain text) (g.parenthesized ending) :=
  .node rfl <|
    .pass (.mark _) fun _ =>
    .bind (sound.commaExpression _) fun _ inner =>
    .join (.done .nil) (.optionally (.single (sound.typeAscription _))) fun _ type =>
    .pass (.mark _) fun _ => .done (.cons inner type)

theorem parenthesizedOrArrow (ending : Ending) :
    Yields text low (Plain text) (g.parenthesizedOrArrow ending) := by
  refine .bind_back (.look (.test _)) fun _ _ => .ite (sound.arrowFunction _) ?_
  refine .bind_back .get fun before stands => ?_
  refine .bind_back (.optional? (sound.parenthesized _)) fun found parenthesized => ?_
  cases found with
  | none =>
      exact .pass (.look .arrowAhead) fun _ =>
        .ite (.havingRefused _ (sound.arrowFunction _)) .refuse
  | some found =>
      refine .bind_back (.look .operator) fun _ _ => .ite ?_ (.done (parenthesized _ rfl))
      split
      · rename_i function after read
        obtain ⟨behind, plain⟩ := sound.arrowFunction ending before stands function after read
        exact .pass (.set behind) fun _ => .done plain
      · exact .done (parenthesized _ rfl)

theorem templateSubstitution : Yields text low (Plain text) g.templateSubstitution :=
  .node rfl <|
    .pass (.immediate (.front _ _)) fun _ =>
    .bind (sound.commaExpression _) fun _ inner =>
    .pass (.mark _) fun _ => .done (.one inner)

theorem templateString : Yields text low (Plain text) g.templateString :=
  (Reads.template _ sound.templateSubstitution).weaken fun _ _ _ template =>
    template.plain (.inr rfl)

theorem index : Yields text low (Plain text) g.index :=
  .pass (.mark _) fun _ =>
  .bind (sound.commaExpression _) fun _ index =>
  .pass (.mark _) fun _ => .done index

theorem callTail : Yields text low (Plains text) g.callTail :=
  .bind (.optionally (.single sound.typeArguments)) fun _ types =>
  .bind (.inRole _ sound.arguments) fun _ arguments => .done (types.append (.one arguments))

theorem importExpression : Yields text low (Plain text) g.importExpression :=
  .atStart fun _ _ starts =>
  .bind (.token rfl (.wordNode _ _ rfl)) fun _ callee =>
  .either (.pass (.exactly _) fun _ => .pass (.keyword _) fun _ =>
    .bind .stop fun _ stops => .done (.of_ordinary rfl starts stops.1 .nil)) <|
  .either (.nodeAfter rfl (callee.withRole _) sound.callTail) <|
  .only (.memberAfter _ callee)

theorem newExpression (ending : Ending) : Yields text low (Plain text) (g.newExpression ending) :=
  .node rfl <|
    .pass (.keyword _) fun _ =>
    .bind (.inRole _ (sound.operation _ _)) fun _ constructor => .guard <|
    .pass (.look (.endsHere _)) fun _ => .ite (.done (.one constructor)) <|
    .pass (.look (.operatorIs _)) fun _ =>
    .join (.single sound.typeArguments) (.done .nil) fun _ types =>
    .pass (.look (.endsHere _)) fun _ => .ite (.done (.cons constructor types)) <|
    .bind (.optionally (.single (.inRole _ sound.arguments))) fun _ arguments =>
    .done ((Plains.cons constructor types).append arguments)

theorem newOperand (ending : Ending) : Yields text low (Plain text) (g.newOperand ending) :=
  .pass (.look (.test _)) fun _ =>
  .pass (.look .afterWord) fun _ => .pass (.look .afterWord) fun _ =>
  .ite (.node rfl <| .pass (.keyword _) fun _ => .pass (.exactly _) fun _ =>
    .pass (.keyword _) fun _ => .done .nil) <|
  .ite (.token rfl (.named _)) (sound.newExpression _)

theorem yieldExpression (ending : Ending) :
    Yields text low (Plain text) (g.yieldExpression ending) :=
  .node rfl <|
    .pass (.keyword _) fun _ =>
    .pass (.skipIf (.exactly _)) fun _ => .ite (.single (sound.expression _)) <|
    .pass (.look (.endsHere _)) fun _ => .pass (.look (.wordIs _)) fun _ => .ite (.done .nil) <|
    .pass (.look .beginsOperand) fun _ => .ite (.single (sound.expression _)) (.done .nil)

theorem moduleTail (ending : Ending) : Yields text low (Plains text) (g.moduleTail ending) :=
  .bind (.either .stringLiteral <| .only <|
    .bind (.token rfl (.named _)) fun _ first => .nestedName first) fun _ name =>
  .pass (.look (.endsHere _)) fun _ => .ite (.done (.one (name.withRole _))) <|
  .pass (.look (.nextIs _)) fun _ =>
  .join (.single (.inRole _ (sound.statementBlock _))) (.done .nil) fun _ body =>
  .done (.cons (name.withRole _) body)

theorem namespaceExpression (ending : Ending) :
    Yields text low (Plain text) (g.namespaceExpression ending) :=
  .node rfl <| .pass (.keyword _) fun _ => sound.moduleTail _

theorem usingAssignment (ending : Ending) :
    Yields text low (Plain text) (g.usingAssignment ending) :=
  .node rfl <|
    .pass (.keyword _) fun _ =>
    .bind (.either sound.pattern <| .either sound.place <| .only (sound.parenthesized _))
      fun _ target =>
    .pass (.exactly _) fun _ =>
    .bind (sound.expression _) fun _ value => .done (.two target value)

theorem wordOperand (ending : Ending) (word : List Char) :
    Yields text low (Plain text) (g.wordOperand ending word) := by
  refine .pass (.look .afterWord) fun _ => ?_
  split
  · rename_i kind found
    exact .token (isBare_of_wordLiteral found) (.named _)
  · exact .pass (.look (.test _)) fun _ => .ite sound.functionExpression <|
      .ite sound.classExpression <| .ite sound.importExpression <|
      .ite (sound.yieldExpression _) <| .ite (sound.usingAssignment _) <|
      .ite (sound.arrowFunction _) <| .ite (sound.newOperand _) <|
      .pass (.look (.moduleFollows _ _)) fun _ => .ite (sound.namespaceExpression _) <|
      .ite (.either (sound.arrowFunction _) <| .only (.token rfl (.named _))) <|
      .token rfl (.named _)

theorem prefixed {kind : Kind} (ordinary : kind.isOrdinary = true) (pending : Pending)
    (ending : Ending) {operator : Reader Unit} (reads : ∀ {low}, Passes text low operator) :
    Yields text low (Plain text) (g.prefixed kind pending ending operator) :=
  .node ordinary <|
    .pass reads fun _ => .bind (sound.operation _ _) fun _ operand => .done (.one operand)

theorem privateMembership (ending : Ending) :
    Yields text low (Plain text) (g.privateMembership ending) :=
  .node rfl <|
    .bind (.token rfl (.leaf _ .scanPrivateName rfl)) fun _ name =>
    .pass (.keyword _) fun _ =>
    .bind (sound.operation _ _) fun _ owner => .done (.two name owner)

theorem typeAssertion (ending : Ending) :
    Yields text low (Plain text) (g.typeAssertion ending) :=
  .node rfl <|
    .bind sound.typeArguments fun _ types =>
    .bind (sound.operation _ _) fun _ operand => .done (.two types operand)

theorem angleOperand (ending : Ending) : Yields text low (Plain text) (g.angleOperand ending) :=
  .pass (.look .isMarkup) fun _ =>
  .ite
    (.pass (.look (.test _)) fun _ => .ite (sound.arrowFunction _) <|
      .either (sound.arrowFunction _) <| .only sound.element) <|
  .pass (.look (.test _)) fun _ => .ite (sound.typeAssertion _) <|
    .either (sound.arrowFunction _) <| .only (sound.typeAssertion _)

theorem operand (pending : Pending) (ending : Ending) :
    Yields text low (Plain text) (g.operand pending ending) := by
  have unary {low : Nat} {kind : Kind} {pending : Pending} {operator : String}
      (ordinary : kind.isOrdinary = true) :
      Yields text low (Plain text) (g.prefixed kind pending ending (Reader.mark operator)) :=
    sound.prefixed ordinary _ _ (.mark _)
  refine .pass .opening fun _ => .pass (.look .ahead) fun _ => .pass (.look .wordAhead) fun _ => ?_
  split
  · exact .refuse
  · exact .ite (sound.parenthesized _) (sound.parenthesizedOrArrow _)
  · exact .literalOrTarget sound.objectLiteral sound.objectPattern
  · exact .literalOrTarget sound.arrayLiteral sound.arrayPattern
  · exact sound.templateString
  · exact .token rfl (.leaf _ .scanRegex rfl)
  · exact sound.classExpression
  · exact sound.privateMembership _
  · exact sound.angleOperand _
  · exact .stringLiteral
  · exact .stringLiteral
  · exact unary rfl
  · exact unary rfl
  · exact .ite (unary rfl) (unary rfl)
  · exact .ite (unary rfl) (unary rfl)
  · exact .ite .numberLiteral <|
      .ite (sound.prefixed rfl _ _ (.pass .anyWord fun _ => .done trivial)) <|
      .ite (sound.prefixed rfl _ _ (.keyword _)) <| sound.wordOperand _ _

end Grammar.Sound

end ComponentSurvey.Syntax
