import ComponentSurvey.Proofs.Syntax.Grammar.Basic
import ComponentSurvey.Syntax.Grammar.Types

/-!
# Types are plain

No type, parameter or member of an object type is a statement or an attribute.
-/

namespace ComponentSurvey.Syntax

open Text Reader Grammar

/-! ## Pieces without levels -/

namespace Reads

variable {text : List Char} {low : Nat}

theorem qualifiedName (ending : Ending) {first : Node} (token : Token text .identifier first) :
    Yields text low (Plain text) (qualifiedName ending first) := by
  refine .join (.look (.pure _)) (.look .fuel) fun limit _ => ?_
  refine .bind (.repeatedAfter (.exactly _) (.named _) _) fun names named => ?_
  rcases ends : names.getLast? with _ | last
  · exact .done ((token.withKind rfl _).plain rfl)
  · have lastNamed :=
      ((named last (List.mem_of_getLast? ends)).withKind rfl .typeIdentifier).name rfl
    have names : ∀ name ∈ names.dropLast,
        Named text ((name.withKind .propertyIdentifier).withRole .property) ∧
          IsBoundary text name.stop := fun name member =>
      have token := (named name (List.dropLast_subset _ member)).withKind rfl .propertyIdentifier
      ⟨(token.name rfl).withRole _, token.stops⟩
    have path := Plain.foldl_nested _ token.starts names (token.plain rfl)
    exact .done (.of_path rfl (by decide) path (lastNamed.withRole _) token.starts
      lastNamed.plain.stops)

theorem thisNode : Yields text low (Plain text) thisNode := .token rfl (wordNode _ _ rfl)

theorem wordInside {kind word : Kind} (isBareName : kind.isBareName = true)
    (other : kind ≠ .propertyIdentifier) (isMinor : word.isMinor = true) :
    Yields text low (Plain text) (Reader.node kind (Reader.single (Reader.named word))) :=
  .nodeOfWords isBareName other <| (named word).bind fun _ token =>
    .done (List.forall_mem_singleton.mpr ⟨word, isMinor, token⟩)

theorem predicateSubject : Yields text low (Plain text) predicateSubject :=
  .pass (.look .wordAhead) fun _ =>
  .ite thisNode <| .ite (.wordInside rfl nofun rfl) <| .ite (.wordInside rfl nofun rfl) <|
  .ite (.nodeOfWords rfl nofun <| .pass (.keyword _) fun _ => .pass (.keyword _) fun _ =>
    .done fun _ member => nomatch member) <|
  .ite .refuse <| .token rfl (.named _)

theorem decoratorName : Yields text low (Plain text) decoratorName :=
  .bind (.token rfl (.named _)) fun _ first =>
  .bind (.nestedName first) fun _ path => .done path.leading

theorem parameterModifiers : Yields text low (Plains text) parameterModifiers :=
  have word {low : Nat} {kind : Kind} {words : List String} {begins : Char → Bool}
      (isBare : kind.isBare = true) : Yields text low (Plains text) (do
        let qualifies := (← afterWord).head?.any begins
        if isOneOf words (← wordAhead) && qualifies then Reader.single (Reader.named kind)
        else return []) :=
    .pass (.look .afterWord) fun _ => .pass (.look .wordAhead) fun _ =>
    .ite (.single (.token isBare (.named _))) (.done .nil)
  .bind (word rfl) fun _ access =>
  .bind (word rfl) fun _ override =>
  .bind (word rfl) fun _ _ =>
  .done (access.append override)

theorem literalType {inner : Reader Node} (reads : ∀ {low}, Yields text low (Plain text) inner) :
    Yields text low (Plain text) (literalType inner) :=
  .node rfl (.single reads)

theorem signedNumber : Yields text low (Plain text) signedNumber :=
  .node rfl <|
    .pass (.either (.mark _) <| .only (.mark _)) fun _ =>
    .bind .numberLiteral fun _ number => .done (.one number)

/-! ### Paths -/

/-- A step that makes a plain path of every plain path. -/
def Continues (text : List Char) (step : PathStep) : Prop :=
  ∀ path, Plain text path → Plain text
    (.mk step.kind none path.start step.stop [path.withRole step.role, step.inner])

def ContinuesAll (text : List Char) (steps : List PathStep) : Prop :=
  ∀ step ∈ steps, Continues text step

theorem ContinuesAll.nil : ContinuesAll text [] := fun _ member => nomatch member

theorem ContinuesAll.cons {step : PathStep} {steps : List PathStep} (first : Continues text step)
    (others : ContinuesAll text steps) : ContinuesAll text (step :: steps) :=
  List.forall_mem_cons.mpr ⟨first, others⟩

theorem plain_pathOf {base : Node} (plain : Plain text base) {steps : List PathStep}
    (continued : ContinuesAll text steps) : Plain text (pathOf base steps) := by
  unfold pathOf
  induction steps generalizing base with
  | nil => exact plain
  | cons step rest ih =>
      exact ih (continued step List.mem_cons_self base plain) fun other member =>
        continued other (List.mem_cons_of_mem _ member)

theorem pathMember (operator : String) : Yields text low (Continues text) (pathMember operator) :=
  .pass (.exactly _) fun _ =>
  .bind (.either (.name rfl (.named _)) <| .only <| .name rfl (.leaf _ .scanPrivateName rfl))
    fun _ member =>
  .bind .stop fun _ stops => .done fun _ path =>
  .of_path rfl (by simp) path (member.withRole _) path.starts stops.1

theorem pathSteps (ending : Ending) {member call : Reader PathStep}
    (members : ∀ {low}, Yields text low (Continues text) member)
    (calls : ∀ {low}, Yields text low (Continues text) call) (fuel : Nat) (mayCall : Bool) :
    Yields text low (ContinuesAll text) (pathSteps ending member call fuel mayCall) := by
  induction fuel generalizing low mayCall with
  | zero => exact .done .nil
  | succ fuel ih =>
      refine .pass (.look (.endsHere _)) fun _ => .ite (.done .nil) ?_
      refine .bind (.optional? <| .ite (.either calls <| .only members) members)
        fun found first => ?_
      cases found with
      | none => exact .done .nil
      | some step => exact .bind (ih _) fun _ others => .done (.cons (first step rfl) others)

end Reads

namespace Grammar.Sound

variable {text : List Char} {low : Nat} {g : Grammar} (sound : g.Sound text)
include sound

/-! ## Names and arguments -/

theorem typeArguments : Yields text low (Plain text) g.typeArguments :=
  .node rfl <|
    .pass (.exactly _) fun _ =>
    .bind (.commaSeparated (sound.type _)) fun _ types =>
    .pass (.skipIf (.mark _)) fun _ =>
    .pass (.mark _) fun _ => .done types

theorem namedType (ending : Ending) : Yields text low (Plain text) (g.namedType ending) :=
  .bind (.named _) fun _ first =>
  .bind (.qualifiedName ending first) fun _ name =>
  .pass (.look (.endsHere _)) fun _ => .pass (.look (.operatorIs _)) fun _ =>
  .ite (.done name) <|
  .bind sound.typeArguments fun _ arguments =>
  .done (.of_ordinary rfl name.starts arguments.stops (.two (name.withRole _) arguments))

theorem typeParameter : Yields text low (Plain text) g.typeParameter :=
  .node rfl <|
    .pass (.skipIf (.keyword _)) fun _ =>
    .bind (.inRole _ (.token rfl (.named _))) fun _ name =>
    .bind (.optionally <| .single <| .node rfl <|
      .pass (.either (.keyword _) <| .only (.exactly _)) fun _ =>
      .bind (sound.type _) fun _ bound => .done (.one bound)) fun _ bound =>
    .bind (.optionally <| .single <| .node rfl <|
      .pass (.exactly _) fun _ =>
      .bind (sound.type _) fun _ type => .done (.one type)) fun _ default =>
    .done (.append (.cons name bound) default)

theorem typeParameters : Yields text low (Plain text) g.typeParameters :=
  .node rfl <|
    .pass (.exactly _) fun _ =>
    .bind (.commaSeparated sound.typeParameter) fun _ parameters =>
    .pass (.skipIf (.mark _)) fun _ =>
    .pass (.mark _) fun _ => .done parameters

/-! ## Annotations -/

theorem typeAscription (ending : Ending) :
    Yields text low (Plain text) (g.typeAscription ending) :=
  .node rfl <|
    .pass (.exactly _) fun _ => .bind (sound.type _) fun _ type => .done (.one type)

theorem typePredicate (ending : Ending) : Yields text low (Plain text) (g.typePredicate ending) :=
  .node rfl <|
    .bind (.inRole _ .predicateSubject) fun _ subject =>
    .pass (.look (.endsHere _)) fun _ => .guard <|
    .pass (.keyword _) fun _ =>
    .bind (.inRole _ (sound.type _)) fun _ type => .done (.two subject type)

theorem assertsClause (ending : Ending) : Yields text low (Plain text) (g.assertsClause ending) :=
  .node rfl <|
    .pass (.keyword _) fun _ =>
    .single <| .either (sound.typePredicate _) <| .either .thisNode <| .only <|
      .pass (.look .wordAhead) fun _ => .guard <| .token rfl (.named _)

theorem resultOf (ending : Ending) : Yields text low (Plain text) (g.resultOf ending) :=
  .pass (.look (.wordIs _)) fun _ =>
  .ite (sound.assertsClause _) <| .either (sound.typePredicate _) <| .only (sound.type _)

theorem resultAscription (ending : Ending) :
    Yields text low (Plain text) (g.resultAscription ending) :=
  .atStart fun _ _ starts =>
  .pass (.exactly _) fun _ =>
  .bind (sound.resultOf _) fun _ plain =>
  .bind .stop fun _ stops => .done <| by
    refine .of_ordinary ?_ starts stops.1 (.one plain)
    split <;> rfl

/-! ## Parameters -/

theorem decorator : Yields text low (Plain text) g.decorator :=
  have call {low : Nat} : Yields text low (Plain text) _ :=
    .bind .decoratorName fun _ named =>
    .bind (.optional? <|
      .bind (.optionally (.single sound.typeArguments)) fun _ types =>
      .bind (.inRole _ sound.arguments) fun _ arguments =>
      .done (types.append (.one arguments))) fun found rest =>
    match found, rest with
    | none, _ => .done named
    | some _, rest => .bind .stop fun _ stops =>
      .done (.of_ordinary rfl named.starts stops.1 (.cons (named.withRole _) (rest _ rfl)))
  .node rfl <|
    .pass (.mark _) fun _ =>
    .pass (.look (.nextIs _)) fun _ =>
    .ite (.single <| .node rfl <|
      .pass (.mark _) fun _ => .bind call fun _ inner => .pass (.mark _) fun _ =>
      .done (.one inner)) (.single call)

theorem restPattern : Yields text low (Plain text) g.restPattern :=
  .node rfl <|
    .pass (.mark _) fun _ => .bind sound.pattern fun _ pattern => .done (.one pattern)

theorem parameter : Yields text low (Plain text) g.parameter :=
  .atStart fun _ _ starts =>
  .bind (.manyPlain sound.decorator) fun _ decorators =>
  .bind .parameterModifiers fun _ modifiers =>
  .bind (.inRole _ <| .either sound.restPattern <| .either sound.pattern <| .only .thisNode)
    fun _ pattern =>
  .pass (.look .ahead) fun _ => .guard <|
  .bind (.optionally (.single .optionalMarkNode)) fun _ mark =>
  .bind (.optionally (.single (sound.typeAscription _))) fun _ type =>
  .join (.done .nil) (.optionally (.single (sound.initializer _))) fun _ value =>
  .bind .stop fun _ stops =>
  .done <| .of_ordinary (Kind.isOrdinary_ite rfl rfl) starts stops.1
      ((((decorators.append modifiers).append (.cons pattern mark)).append type).append value)

theorem formalParameters : Yields text low (Plain text) g.formalParameters :=
  .node rfl <|
    .pass (.mark _) fun _ =>
    .bind (.optionally <|
      .bind (.commaSeparated sound.parameter) fun _ parameters =>
      .pass (.skipIf (.mark _)) fun _ => .done parameters) fun _ parameters =>
    .pass (.mark _) fun _ => .done parameters

theorem signature (ending : Ending) : Yields text low (Plains text) (g.signature ending) :=
  .bind (.optionally (.single sound.typeParameters)) fun _ types =>
  .bind sound.formalParameters fun _ parameters =>
  .bind (.optionally (.single (sound.resultAscription _))) fun _ result =>
  .done (types.append (.cons parameters result))

/-! ## Members of object types -/

theorem indexSignature (ending : Ending) :
    Yields text low (Plain text) (g.indexSignature ending) :=
  have ascription {low : Nat} {kind : Kind} {opening : String} (ordinary : kind.isOrdinary = true) :
      Yields text low (Plain text) (Reader.node kind do
        Reader.mark opening
        return [← g.type ending]) :=
    .node ordinary <|
      .pass (.mark _) fun _ => .bind (sound.type _) fun _ type => .done (.one type)
  .node rfl <|
    .pass (.maybe <|
      .pass (.maybe <| .either (.mark _) <| .only (.mark _)) fun _ =>
      .pass (.keyword _) fun _ =>
      .pass (.look (.endsHere _)) fun _ => .guard <|
      .pass (.look (.nextIs _)) fun _ => .ite .refuse (.done trivial)) fun _ =>
    .pass (.mark _) fun _ =>
    .bind (.either
      (.bind (.inRole _ (.token rfl (.named _))) fun _ name =>
        .pass (.exactly _) fun _ =>
        .bind (sound.type _) fun _ type => .done (.two name type)) <|
      .only <| .single <| .node rfl <|
        .bind (.inRole _ (.token rfl (.named _))) fun _ name =>
        .pass (.keyword _) fun _ =>
        .bind (sound.type _) fun _ type =>
        .bind (.optionally <| .pass (.keyword _) fun _ => .single (.inRole _ (sound.type _)))
          fun _ other =>
        .done (.cons name (.cons type other))) fun _ head =>
    .pass (.mark _) fun _ =>
    .bind (.either (ascription rfl) <| .either (ascription rfl) <| .either (ascription rfl) <|
      .only (sound.typeAscription _)) fun _ type =>
    .done (head.append (.one type))

theorem constructSignature (ending : Ending) :
    Yields text low (Plain text) (g.constructSignature ending) :=
  .node rfl <|
    .pass (.skipIf (.keyword _)) fun _ =>
    .pass (.keyword _) fun _ =>
    .pass (.look (.endsHere _)) fun _ => .guard <|
    .bind (.optionally (.single sound.typeParameters)) fun _ types =>
    .bind sound.formalParameters fun _ parameters =>
    .bind (.optionally (.single (sound.typeAscription _))) fun _ type =>
    .done (types.append (.cons parameters type))

theorem propertyOrMethodSignature (ending : Ending) :
    Yields text low (Plain text) (g.propertyOrMethodSignature ending) :=
  .atStart fun _ _ starts =>
  .bind (.propertyModifiers _) fun _ modifiers =>
  .pass (.methodModifiers _) fun _ =>
  .bind (.inRole _ sound.propertyName) fun _ name =>
  .bind (.optionally (.single .optionalMarkNode)) fun _ mark =>
  have head := modifiers.append (.cons name mark)
  .pass (.look (.endsHere _)) fun _ =>
  .ite (.guard <| .bind .stop fun _ stops =>
    .done (.of_ordinary rfl starts stops.1 (head.append .nil))) <|
  .pass (.look (.nextIs _)) fun _ => .pass (.look (.nextIs _)) fun _ =>
  .ite (.bind (sound.signature _) fun _ rest => .bind .stop fun _ stops =>
    .done (.of_ordinary rfl starts stops.1 (head.append rest))) <|
  .bind (.optionally (.single (sound.typeAscription _))) fun _ type =>
  .guard <| .bind .stop fun _ stops => .done (.of_ordinary rfl starts stops.1 (head.append type))

theorem exportMember (ending : Ending) : Yields text low (Plain text) (g.exportMember ending) :=
  .pass (.look (.wordIs _)) fun _ => .pass (.look (.nextIs _)) fun _ => .guard <|
  .pass (.look (.test _)) fun _ => .guard <|
  .bind sound.statement fun member spanned => by
    split
    · rename_i isExport
      exact .done ⟨spanned.grammatical, by rw [isExport]; rfl⟩
    · exact .refuse

theorem typeMember : Yields text low (Plain text) g.typeMember :=
  .pass (.look (.wordIs _)) fun _ =>
  .ite (sound.constructSignature _) <|
  .either (sound.exportMember _) <| .either (sound.indexSignature _) <|
  .either (sound.constructSignature _) <| .either (.node rfl (sound.signature _)) <|
  .only (sound.propertyOrMethodSignature _)

theorem objectType {kind : Kind} (ordinary : kind.isOrdinary = true) :
    Yields text low (Plain text) (g.objectType kind) :=
  have separator {low : Nat} : Passes text low
      (Reader.firstOf [Reader.mark ",", Reader.semicolon .afterType]) :=
    .either (.mark _) <| .only (.semicolon _)
  .node ordinary <|
    .pass (.either (.mark _) <| .only (.mark _)) fun _ =>
    .bind (.optionally <|
      .pass (.skipIf <| .either (.mark _) <| .only (.mark _)) fun _ =>
      .bind sound.typeMember fun _ first =>
      .bind (.manyPlain <| .pass separator fun _ => sound.typeMember) fun _ others =>
      .pass (.skipIf separator) fun _ => .done (.cons first others)) fun _ members =>
    .pass (.either (.mark _) <| .only (.mark _)) fun _ => .done members

/-! ## Primary types -/

theorem tupleMember : Yields text low (Plain text) g.tupleMember :=
  .either
    (.atStart fun _ _ starts =>
      .bind (.inRole _ <| .pass (.look .wordAhead) fun _ => .guard <| .token rfl (.named _))
        fun _ name =>
      .bind (.optionally (.single .optionalMarkNode)) fun _ mark =>
      .bind (sound.typeAscription _) fun _ type =>
      .bind .stop fun _ stops =>
      .done <| .of_ordinary (Kind.isOrdinary_ite rfl rfl) starts stops.1
        ((Plains.cons name mark).append (.one type))) <|
  .either
    (.node rfl <|
      .bind (.inRole _ <| .node rfl <| .pass (.mark _) fun _ => .single sound.pattern) fun _ name =>
      .bind (sound.typeAscription _) fun _ type => .done (.two name type)) <|
  .either
    (.node rfl <| .pass (.mark _) fun _ => .bind (sound.type _) fun _ type => .done (.one type)) <|
  .only <|
    .bind (sound.type _) fun _ type =>
    .pass (.look (.nextIs _)) fun _ =>
    .ite (.nodeAfter rfl type <| .pass (.mark _) fun _ => .done .nil) (.done type)

theorem pathCall : Yields text low (Reads.Continues text) g.pathCall :=
  .bind (.inRole _ sound.arguments) fun _ arguments =>
  .bind .stop fun _ stops => .done fun _ path =>
  .of_ordinary rfl path.starts stops.1 (.two (path.withRole _) arguments)

theorem importedType (ending : Ending) : Yields text low (Plain text) (g.importedType ending) :=
  .bind (.token rfl (.wordNode _ _ rfl)) fun _ base =>
  .bind (.either sound.pathCall <| .only (.pathMember _)) fun _ first =>
  .pass (.look .fuel) fun _ =>
  .bind (.pathSteps _ (.pathMember _) sound.pathCall _ _) fun _ others =>
  .done (Reads.plain_pathOf base (.cons first others))

theorem pathIndex : Yields text low (Reads.Continues text) g.pathIndex :=
  .pass (.mark _) fun _ => .pass (.mark _) fun _ =>
  .bind (.either .stringLiteral <| .either .numberLiteral <| .only (sound.typeOperation _ _))
    fun _ index => .guard <|
  .pass (.mark _) fun _ => .bind .stop fun _ stops => .done fun _ path =>
  .of_ordinary rfl path.starts stops.1 (.two (path.withRole _) index)

theorem typeQuery (ending : Ending) : Yields text low (Plain text) (g.typeQuery ending) := by
  have member {low : Nat} : Yields text low (Reads.Continues text)
      (if ending.memberFollows then pathMember "."
        else Reader.firstOf [g.pathIndex, pathMember ".", pathMember "?."]) :=
    .ite (.pathMember _) <| .either sound.pathIndex <| .either (.pathMember _) <|
      .only (.pathMember _)
  have stepped {low : Nat} (fuel : Nat) (mayCall : Bool) :
      Yields text low (Reads.ContinuesAll text) (pathSteps ending _ g.pathCall fuel mayCall) :=
    .pathSteps ending member sound.pathCall fuel mayCall
  refine .node rfl <|
    .pass (.keyword _) fun _ =>
    .bind (.either (.token rfl (.wordNode _ _ rfl)) <| .either .thisNode <|
      .only (.token rfl (.named _))) fun _ base => ?_
  refine .ite (.bind (.optional? sound.pathCall) fun found first => ?_) <|
    .pass (.look .fuel) fun _ => .bind (stepped _ _) fun steps continued => ?_
  on_goal 1 => rcases found with _ | call
  on_goal 1 =>
    have noSteps : Reads.ContinuesAll text [] := .nil
    refine .bind (.done noSteps) fun steps continued => ?_
  on_goal 2 =>
    have called {low fuel : Nat} : Yields text low (Reads.ContinuesAll text)
        ((call :: ·) <$> pathSteps ending _ g.pathCall fuel false) :=
      .map (stepped _ _) fun _ _ _ others => .cons (first _ rfl) others
    refine .pass (.look .fuel) fun _ => .bind called fun steps continued => ?_
  -- whatever its steps, the path is all there is or takes type arguments
  all_goals
    have path := Reads.plain_pathOf base continued
    refine .pass (.look (.endsHere _)) fun _ => .pass (.look (.operatorIs _)) fun _ =>
      .join (.done .nil) (.single sound.typeArguments) fun types arguments => ?_
    rcases types with _ | ⟨types, rest⟩
    · exact .ite .refuse (.done (.one path))
    · have plain := arguments types List.mem_cons_self
      exact .done (.one (.of_ordinary rfl path.starts plain.stops (.two (path.withRole _) plain)))

theorem templateHoleType : Yields text low (Plain text) g.templateHoleType :=
  .node rfl <|
    .pass (.immediate (.front _ _)) fun _ =>
    .bind (sound.type _) fun _ type => .guard <|
    .pass (.mark _) fun _ => .done (.one type)

theorem wordType (ending : Ending) (word : List Char) :
    Yields text low (Plain text) (g.wordType ending word) :=
  have literal {low : Nat} {kind : Kind} (isBare : kind.isBare = true) :
      Yields text low (Plain text) (literalType (Reader.named kind)) :=
    .literalType (.token isBare (.named _))
  .ite (.node rfl (.single (.token rfl (.named _)))) <|
  .ite (.node rfl (.single (.token rfl (.named _)))) <|
  .ite (.token rfl (.named _)) <|
  .ite (.node rfl <| .pass (.keyword _) fun _ => .pass (.keyword _) fun _ => .done .nil) <|
  .ite (.token rfl (.named _)) <|
  .ite (literal rfl) <| .ite (literal rfl) <| .ite (literal rfl) <| .ite (literal rfl) <|
  .ite (.token rfl (.named _)) <|
  .ite (sound.typeQuery _) <| .ite (sound.importedType _) <| .ite .refuse <| sound.namedType _

theorem parenthesizedType : Yields text low (Plain text) g.parenthesizedType :=
  .node rfl <|
    .pass (.mark _) fun _ =>
    .pass (.look (.test _)) fun _ => .guard <|
    .bind (sound.type _) fun _ type =>
    .pass (.mark _) fun _ => .done (.one type)

theorem primaryType (ending : Ending) : Yields text low (Plain text) (g.primaryType ending) := by
  refine .pass (.look .ahead) fun _ => ?_
  split
  · exact .refuse
  · exact sound.parenthesizedType
  · exact sound.objectType rfl
  · exact .node rfl <|
      .pass (.mark _) fun _ =>
      .bind (.optionally (.commaSeparated sound.tupleMember)) fun _ members =>
      .pass (.skipIf (.mark _)) fun _ =>
      .pass (.mark _) fun _ => .done members
  · exact (Reads.template _ sound.templateHoleType).weaken fun _ _ _ template =>
      template.plain (.inl rfl)
  · exact .node rfl <| .pass (.mark _) fun _ => .done .nil
  · exact .node rfl <|
      .pass (.mark _) fun _ => .bind (sound.type _) fun _ type => .ite (.done (.one type)) .refuse
  · exact .ite (.literalType .stringLiteral) <| .ite (.literalType .signedNumber) <|
      .ite (.literalType .numberLiteral) <|
      .pass (.look .wordAhead) fun _ => sound.wordType _ _

/-! ## Functions -/

theorem functionType (ending : Ending) : Yields text low (Plain text) (g.functionType ending) :=
  .node rfl <|
    .bind (.optionally (.single sound.typeParameters)) fun _ types =>
    .pass .get fun _ =>
    .bind sound.formalParameters fun _ parameters =>
    .pass (.exactly _) fun _ => .guard <|
    .bind (sound.resultOf _) fun _ result =>
    .done (types.append (.two parameters result))

theorem constructorType (ending : Ending) :
    Yields text low (Plain text) (g.constructorType ending) :=
  .node rfl <|
    .pass (.skipIf (.keyword _)) fun _ =>
    .pass (.keyword _) fun _ =>
    .bind (.optionally (.single sound.typeParameters)) fun _ types =>
    .bind sound.formalParameters fun _ parameters =>
    .pass (.mark _) fun _ =>
    .bind (sound.typeOperation _ _) fun _ result =>
    .done (types.append (.two parameters result))

/-! ## Operators on types -/

theorem leadingType {kind : Kind} (ordinary : kind.isOrdinary = true) (operator : String)
    (pending : PendingType) (ending : Ending) :
    Yields text low (Plain text) (g.leadingType kind operator pending ending) :=
  .node ordinary <|
    .pass (.mark _) fun _ => .bind (sound.typeOperation _ _) fun _ type => .done (.one type)

theorem parenthesizedOrFunctionType (ending : Ending) :
    Yields text low (Plain text) (g.parenthesizedOrFunctionType ending) := by
  refine .bind_back .get fun before stands => ?_
  refine .bind_back (.optional? sound.parenthesizedType) fun found parenthesized => ?_
  cases found with
  | none =>
      exact .pass (.look .arrowAhead) fun _ =>
        .ite (.havingRefused _ (sound.functionType _)) .refuse
  | some found =>
      refine .bind_back (.look (.operatorIs _)) fun _ _ =>
        .ite (.done (parenthesized _ rfl)) ?_
      split
      · rename_i function after read
        obtain ⟨behind, plain⟩ := sound.functionType ending before stands function after read
        exact .pass (.set behind) fun _ => .done plain
      · exact .done (parenthesized _ rfl)

theorem operandType (ending : Ending) : Yields text low (Plain text) (g.operandType ending) := by
  refine .pass (.look .ahead) fun _ => ?_
  split
  · exact sound.functionType _
  · exact sound.parenthesizedOrFunctionType _
  · exact sound.leadingType rfl _ _ _
  · exact sound.leadingType rfl _ _ _
  · exact .pass (.look .wordAhead) fun _ =>
      .ite (sound.constructorType _) <|
      .ite (.node rfl <| .pass (.keyword _) fun _ => .single (sound.type _)) <|
      .ite (.node rfl <| .pass (.keyword _) fun _ =>
        .bind (sound.typeOperation _ _) fun _ type => .ite (.done (.one type)) .refuse) <|
      .ite (.node rfl <| .pass (.keyword _) fun _ =>
        .bind (.token rfl (.named _)) fun _ name =>
        .pass (.look (.endsHere _)) fun _ => .ite (.done (.one name)) <|
        .bind (.optionally <| .pass (.keyword _) fun _ => .single (sound.type _)) fun _ bound =>
        .done (.cons name bound)) <|
      sound.primaryType _

theorem typeStep (pending : PendingType) (ending : Ending) {type : Node}
    (plain : Plain text type) :
    Yields text low (fun found => ∀ next, found = some next → Plain text next)
      (g.typeStep pending ending type) := by
  have none {low : Nat} : Yields text low (fun found => ∀ next, found = some next → Plain text next)
      (pure none) := .done fun _ same => nomatch same
  have some {low : Nat} {reader : Reader Node} (reads : Yields text low (Plain text) reader) :
      Yields text low (fun found => ∀ next, found = some next → Plain text next)
        (some <$> reader) :=
    .map reads fun _ _ _ plain _ same => Option.some.inj same ▸ plain
  refine .pass (.look .ahead) fun _ => .ite none ?_
  split
  · exact .ite (.pass (.mark _) fun _ =>
      .bind (.optionally (.single (sound.type _))) fun _ index =>
      .pass (.mark _) fun _ => .bind .stop fun _ stops => .done fun _ same =>
        Option.some.inj same ▸ .of_ordinary (Kind.isOrdinary_ite rfl rfl) plain.starts stops.1
          (.cons plain index)) none
  · exact .ite (some <| .nodeAfter rfl plain <| .pass (.mark _) fun _ =>
      .bind (sound.typeOperation _ _) fun _ other => .done (.one other)) none
  · exact .ite (some <| .nodeAfter rfl plain <| .pass (.mark _) fun _ =>
      .bind (sound.typeOperation _ _) fun _ other => .done (.one other)) none
  · exact .pass (.look (.wordIs _)) fun _ => .ite (some <| .nodeAfter rfl plain <|
      .pass (.keyword _) fun _ => .bind (sound.type _) fun _ bound =>
      .pass (.mark _) fun _ => .bind (sound.type _) fun _ positive =>
      .pass (.exactly _) fun _ => .bind (sound.type _) fun _ negative =>
      .done (.cons bound (.two positive negative))) none

theorem typeSteps (pending : PendingType) (ending : Ending) (fuel : Nat) {type : Node}
    (plain : Plain text type) :
    Yields text low (Plain text) (g.typeSteps pending ending fuel type) := by
  induction fuel generalizing low type with
  | zero => exact .done plain
  | succ fuel ih =>
      refine .pass (.look (.endsHere _)) fun _ => .ite (.done plain) ?_
      refine .bind (sound.typeStep _ _ plain) fun found stepped => ?_
      cases found with
      | none => exact .done plain
      | some next => exact ih (stepped next rfl)

theorem anyType (pending : PendingType) (ending : Ending) :
    Yields text low (Plain text) (g.anyType pending ending) :=
  .bind (sound.operandType _) fun _ operand =>
  .pass (.look .fuel) fun _ => sound.typeSteps _ _ _ operand

end Grammar.Sound

end ComponentSurvey.Syntax
