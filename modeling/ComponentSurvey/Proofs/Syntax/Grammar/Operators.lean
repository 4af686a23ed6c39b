import ComponentSurvey.Proofs.Syntax.Grammar.Operands
import ComponentSurvey.Syntax.Grammar.Operators

/-!
# Operations are plain

A plain operand stays plain in every step that extends it.
-/

namespace ComponentSurvey.Syntax

open Text Reader Grammar

namespace Looks

theorem wordInAngles : Looks wordInAngles := by
  intro input value after found
  unfold Grammar.wordInAngles at found
  split at found <;> cases found <;> rfl

theorem endsBase (g : Grammar) : Looks g.endsBase := .test _

theorem opensTypesOnly (g : Grammar) (ending : Ending) : Looks (g.opensTypesOnly ending) :=
  .bind (.test _) fun _ => .bind (.test _) fun _ => .bind .wordInAngles fun _ => .pure _

theorem stepOperator : Looks stepOperator :=
  .bind .operator fun mark => by
    cases mark with
    | nil => exact .bind .wordAhead fun _ => .pure _
    | cons first others => exact .pure _

theorem conditionFollows : Looks conditionFollows :=
  .bind .get fun _ => .bind .ahead fun _ => .pure _

end Looks

/-- A step, if there is one, that answers plain nodes wherever it is taken. -/
def IsStep (text : List Char) (step : Option (Reader Node)) : Prop :=
  ∀ reader, step = some reader → ∀ low, Yields text low (Plain text) reader

namespace IsStep

variable {text : List Char} {reader : Reader Node}

theorem none : IsStep text none := fun _ same => nomatch same

theorem some (reads : ∀ {low}, Yields text low (Plain text) reader) : IsStep text (some reader) :=
  fun _ same _ => Option.some.inj same ▸ reads

theorem ite {condition : Prop} [Decidable condition] {step other : Option (Reader Node)}
    (isTrue : IsStep text step) (isFalse : IsStep text other) :
    IsStep text (if condition then step else other) := by
  split
  · exact isTrue
  · exact isFalse

theorem when {condition : Prop} [Decidable condition]
    (reads : ∀ {low}, Yields text low (Plain text) reader) :
    IsStep text (if condition then Option.some reader else Option.none) :=
  ite (some reads) none

end IsStep

namespace Grammar.Sound

variable {text : List Char} {low : Nat} {g : Grammar} (sound : g.Sound text)
include sound

section

variable {left : Node} (plain : Plain text left)
include plain

theorem binary (waiting : Pending) (operator : String) (ending : Ending) :
    Yields text low (Plain text) (g.binary waiting operator ending left) :=
  .nodeAfter rfl plain <|
    .pass (.mark _) fun _ => .bind (sound.operation _ _) fun _ right => .done (.one right)

theorem assigned {kind : Kind} (ordinary : kind.isOrdinary = true) (operator : String)
    (ending : Ending) : Yields text low (Plain text) (g.assigned kind operator ending left) :=
  .nodeAfter ordinary plain <|
    .pass (.mark _) fun _ => .bind (sound.expression _) fun _ right => .done (.one right)

theorem ternary (ending : Ending) : Yields text low (Plain text) (g.ternary ending left) :=
  have branch {low : Nat} {ending : Ending} : Yields text low (Plain text) (do
      let positive ← g.expression ending
      Reader.exactly ":"
      return positive) :=
    .bind (sound.expression _) fun _ positive => .pass (.exactly _) fun _ => .done positive
  .nodeAfter rfl plain <|
    .pass (.mark _) fun _ =>
    .pass (.look .arrowAhead) fun _ =>
    .bind (.either branch <| .only <| .ite branch .refuse) fun _ positive =>
    .bind (sound.expression _) fun _ negative => .done (.two positive negative)

end

theorem operandTypeArguments : Yields text low (Plain text) g.operandTypeArguments := by
  refine .pass (.look .wordInAngles) fun _ => .pass (.look (.test _)) fun _ => .guard ?_
  refine .bind sound.typeArguments fun _ types => .pass .get fun _ => ?_
  split
  · exact .ite .refuse (.done types)
  · exact .ite .refuse (.done types)
  · exact .done types

section

variable {left : Node} (plain : Plain text left) {continued : Node → Reader Node}
  (continues : ∀ {low node}, Plain text node → Yields text low (Plain text) (continued node))
include plain continues

theorem angleStep (pending : Pending) (ending : Ending) :
    Yields text low (Plain text) (g.angleStep pending ending continued left) := by
  refine .pass (.look (.test _)) fun _ => .pass (.look (.opensTypesOnly _ _)) fun _ => ?_
  refine .ite (.nodeAfter rfl (plain.withRole _) <|
    .bind sound.operandTypeArguments fun _ types =>
    .bind (.inRole _ sound.arguments) fun _ arguments => .done (.two types arguments)) ?_
  refine .ite ?_ <| .either ?_ <| .only <| .ite .refuse (sound.binary plain _ _ _)
  -- an instantiation, whether or not a comparison is tried after it
  all_goals
    exact .pass .get fun _ =>
      .bind sound.operandTypeArguments fun _ types =>
      .pass (.look (.nextIs _)) fun _ => .guard <|
      .pass (.look (.endsHere _)) fun _ => .guard <|
      .bind (continues (.of_ordinary rfl plain.starts types.stops (.two (plain.withRole _) types)))
        fun _ found =>
      .pass (.look (.wordIs _)) fun _ => .pass (.look (.endsBase _)) fun _ =>
      .pass (.look (.endsHere _)) fun _ => .pass (.look .beginsOperand) fun _ =>
      .ite (.done found) .refuse

theorem cast (pending : Pending) (ending : Ending) (operator : String) :
    Yields text low (Plain text) (g.cast pending ending continued operator left) := by
  have constant {low : Nat} : Yields text low (Plain text) (do
      if operator ≠ "as" || !(← wordIs "const") then Reader.refuse
      let found ← Reader.named .constType
      if ← wordIs "extends" then Reader.refuse else return found) :=
    .pass (.look (.wordIs _)) fun _ => .guard <|
    .bind (.token rfl (.named _)) fun _ found =>
    .pass (.look (.wordIs _)) fun _ => .ite .refuse (.done found)
  have toType {low : Nat} (ending : Ending) : Yields text low (Plain text)
      (Reader.nodeAfter (if operator = "as" then .asExpression else .satisfiesExpression) left do
        Reader.keyword operator
        Reader.single (Reader.firstOf [_, g.type ending])) :=
    .nodeAfter (Kind.isOrdinary_ite rfl rfl) plain <|
      .pass (.keyword _) fun _ => .single <| .either constant <| .only (sound.type _)
  refine .bind_back .get fun before stands => ?_
  refine .bind_back (toType _) fun _ found => ?_
  refine .bind_back (.look .operator) fun _ _ => .ite (.done found) ?_
  refine .bind_back (.optional? <|
    .bind (continues found) fun _ further =>
    .pass (.look (.wordIs _)) fun _ => .guard (.done further)) fun further plain => ?_
  cases further with
  | some further => exact .done (plain further rfl)
  | none => exact .pass (.set stands) fun _ => toType _

end

section

variable {left : Node} (plain : Plain text left)
include plain

theorem optionalStep : Yields text low (Plain text) (g.optionalStep left) :=
  .either (.memberAfter _ plain) <|
  .either (.nodeAfter rfl (plain.withRole _) <| .pass (.mark _) fun _ => .single sound.index) <|
  .only <| .guard <| .nodeAfter rfl (plain.withRole _) <| .pass (.mark _) fun _ => sound.callTail

theorem markStep? (pending : Pending) (refused : Bool) (operator : String) :
    IsStep text (g.markStep? pending refused left operator) := by
  have bare {low : Nat} {kind : Kind} (ordinary : kind.isOrdinary = true) {operator : String} :
      Yields text low (Plain text) (Reader.nodeAfter kind left do
        Reader.mark operator
        return []) :=
    .nodeAfter ordinary plain <| .pass (.mark _) fun _ => .done .nil
  exact .ite (.some (.memberAfter _ plain)) <|
    .ite (.some (sound.optionalStep plain)) <|
    .ite (.some (.nodeAfter rfl (plain.withRole _) (.single sound.index))) <|
    .ite (.some (.nodeAfter rfl (plain.withRole _) sound.callTail)) <|
    .ite (.some (bare rfl)) <| .ite (.some (bare rfl)) .none

theorem templateStep : Yields text low (Plain text) (g.templateStep left) :=
  .nodeAfter rfl (plain.withRole _) (.single (.inRole _ sound.templateString))

theorem operandStep? (pending : Pending) (ending : Ending) {continued : Node → Reader Node}
    (continues : ∀ {low node}, Plain text node → Yields text low (Plain text) (continued node)) :
    Yields text low (IsStep text) (g.operandStep? pending ending continued left) := by
  refine .pass (.look (.nextIs _)) fun _ => .ite (.done (.when (sound.templateStep plain))) ?_
  refine .pass (.look .stepOperator) fun operator => ?_
  cases binaryOperator? operator with
  | some waiting => exact .done (.when (sound.binary plain _ _ _))
  | none =>
      refine .ite (.done (.when (sound.cast plain continues _ _ _))) ?_
      refine .ite (.join (.look (.endsBase _)) (.look (.pure _)) fun _ _ =>
        .join (.look (.test _)) (.look (.pure _)) fun _ _ =>
        .done (.when (sound.angleStep plain continues _ _))) ?_
      refine .ite (.pass (.look .conditionFollows) fun _ =>
        .done (.when (sound.ternary plain _))) ?_
      refine .ite (.done (.when (sound.assigned plain rfl _ _))) ?_
      refine .ite (.done (.when (sound.assigned plain rfl _ _))) ?_
      exact .pass .get fun _ => .done (sound.markStep? plain _ _ _)

end

theorem operandSteps (pending : Pending) (ending : Ending) (fuel : Nat) {left : Node}
    (plain : Plain text left) :
    Yields text low (Plain text) (g.operandSteps pending ending fuel left) := by
  induction fuel generalizing low left with
  | zero => exact .done plain
  | succ fuel ih =>
      refine .pass (.look (.endsHere _)) fun _ => .ite (.done plain) ?_
      refine .bind (sound.operandStep? plain _ _ ih) fun found steps => ?_
      cases found with
      | none => exact .done plain
      | some step => exact .bind (steps step rfl _) fun _ next => ih next

theorem anyOperation (pending : Pending) (ending : Ending) :
    Yields text low (Plain text) (g.anyOperation pending ending) :=
  .bind (sound.operand _ _) fun _ left =>
  .pass (.look .fuel) fun _ => sound.operandSteps _ _ _ left

end Grammar.Sound

end ComponentSurvey.Syntax
