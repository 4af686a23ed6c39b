import ComponentSurvey.Proofs.Syntax.Grammar.Classes
import ComponentSurvey.Proofs.Syntax.Grammar.Modules
import ComponentSurvey.Syntax.Grammar.Statements

/-!
# Statements stay where they are read

A statement lies between where its reader starts and where it stops.  Of the forms that end with
another statement nothing else is promised; every other form is plain.
-/

namespace ComponentSurvey.Syntax

open Text Reader Grammar

/-! ## Looking ahead -/

namespace Looks

theorem nameFollows (ending : Ending) (others : List String) : Looks (nameFollows ending others) :=
  .test _

theorem expressionContinues : Looks expressionContinues :=
  .bind (.endsHere _) fun _ => .ite (.pure _) <|
  .bind .ahead fun _ => .bind .wordAhead fun _ => .pure _

theorem wordEnds : Looks wordEnds := .test _

theorem letDeclares (ending : Ending) : Looks (letDeclares ending) :=
  .bind (.test _) fun _ => .bind (.nameFollows _ _) fun _ => .pure _

theorem ambientFollows (ending : Ending) (others : List String) :
    Looks (ambientFollows ending others) :=
  .bind (.test _) fun _ => .bind (.nameFollows _ _) fun _ => .pure _

end Looks

/-! ## Parts of statements -/

/-- A node that may be a part of a compound statement. -/
def Inner (text : List Char) (node : Node) : Prop :=
  Grammatical text node ∧ node.kind ≠ .jsxAttribute

theorem Plain.inner {text : List Char} {node : Node} (plain : Plain text node) : Inner text node :=
  ⟨plain.grammatical, plain.not_attribute⟩

theorem Plains.inner {text : List Char} {nodes : List Node} (plain : Plains text nodes) :
    ∀ node ∈ nodes, Inner text node :=
  fun node member => (plain node member).inner

theorem Inner.withRole {text : List Char} {node : Node} (inner : Inner text node) (role : Role) :
    Inner text (node.withRole role) :=
  ⟨inner.1.withRole role, inner.2⟩

def Declared (text : List Char) (low : Nat) (node : Node) (high : Nat) : Prop :=
  Spanned text low node high ∧ Plain text node

variable {text : List Char} {low first stop high : Nat} {kind : Kind} {nodes : List Node}

theorem Spanned.of_compound (isCompound : kind.isCompound = true) (before : low ≤ first)
    (starts : IsBoundary text first) (stops : IsBoundary text stop) (behind : stop ≤ high)
    (parts : ∀ part ∈ nodes, Inner text part) :
    Spanned text low (.mk kind none first stop nodes) high where
  grammatical := .mk
    (.of_isFree (Kind.isFree_of_isCompound isCompound) starts stops
      (fun part member isAttribute => absurd isAttribute (parts part member).2)
      fun _ _ _ => .inl isCompound)
    fun part member => (parts part member).1
  not_attribute := by
    rintro ⟨⟩
    cases isCompound
  low_le := before
  le_high := behind

theorem Declared.of_ordinary (ordinary : kind.isOrdinary = true) (before : low ≤ first)
    (starts : IsBoundary text first) (stops : IsBoundary text stop) (behind : stop ≤ high)
    (parts : Plains text nodes) : Declared text low (.mk kind none first stop nodes) high :=
  have plain := Plain.of_ordinary ordinary starts stops parts
  ⟨⟨plain.grammatical, plain.not_attribute, before, behind⟩, plain⟩

namespace Reads

theorem compound {children : Reader (List Node)} (isCompound : kind.isCompound = true)
    (reads : ∀ {low}, Yields text low (fun nodes => ∀ node ∈ nodes, Inner text node) children) :
    Reads text low (Spanned text low) (Reader.node kind children) :=
  .atStart fun _ before starts => .bind reads fun _ parts => .bind .stop fun _ stops =>
  .pure fun _ behind =>
    .of_compound isCompound before starts stops.1 (stops.2.2.trans behind) parts

theorem declared {children : Reader (List Node)}
    (reads : Yields text low (Plain text) (Reader.node kind children)) :
    Reads text low (Declared text low) (Reader.node kind children) :=
  reads.spanned.weaken fun _ _ _ ⟨plain, before, behind⟩ =>
    ⟨⟨plain.grammatical, plain.not_attribute, before, behind⟩, plain⟩

theorem asStatement {reader : Reader Node} (reads : Reads text low (Declared text low) reader) :
    Reads text low (Spanned text low) reader :=
  reads.weaken fun _ _ _ declared => declared.1

theorem asPlain {reader : Reader Node} (reads : Reads text low (Declared text low) reader) :
    Yields text low (Plain text) reader :=
  reads.weaken fun _ _ _ declared => declared.2

theorem asInner {reader : Reader Node} (reads : Reads text low (Spanned text low) reader) :
    Yields text low (Inner text) reader :=
  reads.weaken fun _ _ _ spanned => ⟨spanned.grammatical, spanned.not_attribute⟩

theorem unlessContinued {post : Node → Nat → Prop} {declaration expression : Reader Node}
    (declarations : Reads text low post declaration)
    (expressions : Reads text low post expression) :
    Reads text low post (unlessContinued declaration expression) :=
  .orBack .expressionContinues declarations expressions

theorem emptyStatement : Reads text low (Declared text low) emptyStatement :=
  .declared <| .node rfl <| .pass (.mark _) fun _ => .done .nil

theorem debuggerStatement : Reads text low (Declared text low) debuggerStatement :=
  .declared <| .node rfl <|
    .pass (.keyword _) fun _ => .pass (.semicolon _) fun _ => .done .nil

theorem overAll {reader : Reader (List Node)} (reads : Yields text low (Plains text) reader) :
    Yields text low (Plains text) (do
      let target ← reader
      Reader.firstOf [Reader.keyword "in", Reader.keyword "of"]
      return target) :=
  .bind reads fun _ target =>
  .pass (.either (.keyword _) (.only (.keyword _))) fun _ => .done target

theorem jump (ordinary : kind.isOrdinary = true) (word : String) :
    Reads text low (Declared text low) (jump kind word) :=
  .declared <| .node ordinary <|
    .pass (.keyword _) fun _ =>
    .pass (.look (.endsHere _)) fun _ =>
    .join (.done .nil) (.optionally (.single (.token rfl (.named _)))) fun _ label =>
    .pass (.semicolon _) fun _ => .done label

end Reads

namespace Grammar.Sound

variable {g : Grammar} (sound : g.Sound text)
include sound

/-! ## Variables, functions and classes -/

theorem variableDeclarator : Yields text low (Plain text) g.variableDeclarator :=
  .node rfl <| .either
    (.bind (.inRole _ (.token rfl (.named _))) fun _ name =>
      .pass (.look (.endsHere _)) fun _ => .guard <|
      .pass (.exactly _) fun _ =>
      .bind (sound.typeAscription _) fun _ type => .done (.two name type)) <|
  .only <|
    .bind (.inRole _ sound.bindingTarget) fun _ name =>
    .bind (.optionally (.single (sound.typeAscription _))) fun _ type =>
    .bind (.optionally (.single (sound.initializer _))) fun _ value =>
    .done (Plains.append (.cons name type) value)

theorem variableDeclaration : Reads text low (Declared text low) g.variableDeclaration :=
  .after (.wordIs _) fun _ => .declared <|
  .node (Kind.isOrdinary_ite rfl rfl) <|
    .pass .anyWord fun _ =>
    .bind (.commaSeparated sound.variableDeclarator) fun _ declarators =>
    .pass (.semicolon _) fun _ => .done declarators

theorem functionDeclaration : Reads text low (Declared text low) g.functionDeclaration :=
  .atStart fun _ before starts =>
  .bind .functionHead fun (_, _) name => .guard <|
  .bind (sound.signature _) fun _ signature =>
  have head := name.append signature
  .pass (.look (.nextIs _)) fun _ =>
  .ite
    (.bind (.inRole _ (sound.statementBlock _)) fun _ body =>
      .bind .stop fun _ stops => .pure fun _ behind =>
        .of_ordinary (Kind.isOrdinary_ite rfl rfl) before starts stops.1 (stops.2.2.trans behind)
          (head.append (.one body))) <|
  .pass (.semicolon _) fun _ =>
  .bind .stop fun _ stops => .pure fun _ behind =>
    .of_ordinary rfl before starts stops.1 (stops.2.2.trans behind) head

theorem classDeclaration (ending : Ending) :
    Reads text low (Declared text low) (g.classDeclaration ending) :=
  .atStart fun _ before starts =>
  .bind (.manyPlain sound.decorator) fun _ decorators =>
  .pass (.skipIf (.keyword _)) fun _ =>
  .bind (sound.classTail _) fun _ parts => .guard <|
  have ends {last : Nat} : Reads text last (Declared text low) _ :=
    .bind .stop fun _ stops => .pure fun _ behind =>
      .of_ordinary (Kind.isOrdinary_ite rfl rfl) before starts stops.1 (stops.2.2.trans behind)
        (decorators.append parts)
  .ite (.pass (.closedLine _) fun _ => ends) ends

/-! ## Declarations of types -/

theorem interfaceDeclaration : Reads text low (Declared text low) g.interfaceDeclaration :=
  .declared <| .node rfl <|
    .pass (.keyword _) fun _ =>
    .bind (.inRole _ (.token rfl (.named _))) fun _ name =>
    .bind (.optionally (.single sound.typeParameters)) fun _ types =>
    .bind (.optionally <| .single <| .node rfl <|
      .pass (.keyword _) fun _ => .commaSeparated (sound.namedType _)) fun _ bases =>
    .bind (.inRole _ (sound.objectType rfl)) fun _ body =>
    .done (((Plains.cons name types).append bases).append (.one body))

theorem typeAlias : Reads text low (Declared text low) g.typeAlias :=
  .declared <| .node rfl <|
    .pass (.keyword _) fun _ =>
    .bind (.inRole _ (.token rfl (.named _))) fun _ name =>
    .bind (.optionally (.single sound.typeParameters)) fun _ types =>
    .pass (.exactly _) fun _ =>
    .bind (.inRole _ (sound.type _)) fun _ value =>
    .pass (.semicolon _) fun _ =>
    .done ((Plains.cons name types).append (.one value))

theorem enumMember : Yields text low (Plain text) g.enumMember :=
  .bind (.inRole _ sound.propertyName) fun _ name =>
  .pass (.look (.operatorIs _)) fun _ =>
  .ite (.nodeAfter rfl name (.single (sound.initializer _))) (.done name)

theorem enumDeclaration : Reads text low (Declared text low) g.enumDeclaration :=
  .declared <| .node rfl <|
    .pass (.skipIf (.keyword _)) fun _ => .pass (.keyword _) fun _ =>
    .bind (.inRole _ (.token rfl (.named _))) fun _ name =>
    .bind (.inRole _ <| .node rfl <|
      .pass (.mark _) fun _ =>
      .bind (.optionally <|
        .bind (.commaSeparated sound.enumMember) fun _ members =>
        .pass (.skipIf (.mark _)) fun _ => .done members) fun _ members =>
      .pass (.mark _) fun _ => .done members) fun _ body =>
    .done (.two name body)

theorem moduleDeclaration : Reads text low (Declared text low) g.moduleDeclaration :=
  .declared <| .node rfl <| .pass (.keyword _) fun _ => sound.moduleTail _

theorem ambientDeclaration : Reads text low (Declared text low) g.ambientDeclaration :=
  .declared <| .node rfl <|
    .pass (.keyword _) fun _ => .either
      (.pass (.keyword _) fun _ => .single (sound.statementBlock _)) <|
    .either
      (.pass (.keyword _) fun _ => .pass (.exactly _) fun _ =>
        .bind (.token rfl (.named _)) fun _ member =>
        .pass (.exactly _) fun _ =>
        .bind (sound.type _) fun _ type =>
        .pass (.semicolon _) fun _ => .done (.two member type)) <|
    .only <| .single (sound.plainDeclaration _)

theorem anyDeclaration (ending : Ending) :
    Reads text low (Declared text low) (g.anyDeclaration ending) :=
  have declaration := sound.variableDeclaration
  .after .wordAhead fun _ =>
  .ite declaration <|
  .ite (.after .afterWord fun _ => .ite sound.enumDeclaration declaration) <|
  .ite (.after (.letDeclares _) fun _ => .ite declaration .refuse) <|
  .after (.test _) fun _ => .ite (.unlessContinued sound.functionDeclaration .refuse) <|
  .after (.nextIs _) fun _ => .ite (.unlessContinued (sound.classDeclaration _) .refuse) <|
  .ite sound.interfaceDeclaration <|
  .ite sound.enumDeclaration <|
  .ite (.after (.nameFollows _ _) fun _ => .ite sound.typeAlias .refuse) <|
  .ite (.after (.ambientFollows _ _) fun _ => .ite sound.ambientDeclaration .refuse) <|
  .ite (.after (.moduleFollows _ _) fun _ =>
    .ite (.declared (sound.namespaceExpression _)) .refuse) <|
  .ite (.after (.moduleFollows _ _) fun _ => .ite sound.moduleDeclaration .refuse) <|
  .ite (.declared (.importAlias _)) .refuse

/-! ## Control flow -/

theorem inner : Yields text low (Inner text) g.statement := .asInner sound.statement

theorem body : Yields text low (Inner text) (Reader.inRole .body g.statement) :=
  .bind sound.inner fun _ body => .done (body.withRole _)

theorem elseClause : Yields text low (Inner text) (Reader.node .elseClause do
    keyword "else"
    return [← g.statement]) :=
  .asInner <| .compound rfl <|
    .pass (.keyword _) fun _ => .bind sound.inner fun _ body =>
    .done (List.forall_mem_singleton.mpr body)

theorem ifStatement : Reads text low (Spanned text low) g.ifStatement :=
  .compound rfl <|
    .pass (.keyword _) fun _ =>
    .bind (sound.parenthesized _) fun _ condition =>
    .bind sound.inner fun _ consequence =>
    .pass (.look (.wordIs _)) fun _ =>
    .join
      (.bind sound.elseClause fun _ alternative =>
        .done (List.forall_mem_singleton.mpr alternative))
      (.done fun _ member => nomatch member) fun _ alternative =>
    .done <| List.forall_mem_cons.mpr ⟨condition.inner,
      List.forall_mem_cons.mpr ⟨consequence, alternative⟩⟩

theorem initializedTarget (ending : Ending) : Yields text low (Plains text) (do
    keyword "var"
    let target ← g.bindingTarget
    let value ← g.initializer ending
    if ← endsHere .afterExpression then Reader.refuse
    return [target, value]) :=
  .pass (.keyword _) fun _ =>
  .bind sound.bindingTarget fun _ target =>
  .bind (sound.initializer ending) fun _ value =>
  .pass (.look (.endsHere _)) fun _ => .guard <| .done (.two target value)

theorem forInHead (awaits : Bool) : Yields text low (Plains text) (g.forInHead awaits) := by
  have head {low : Nat} {indexed : Bool} {declared initialized beforeIn place : Reader (List Node)}
      (declares : Yields text low (Plains text) declared)
      (initializes : Yields text low (Plains text) initialized)
      (initializesBefore : Yields text low (Plains text) beforeIn)
      (places : Yields text low (Plains text) place) :
      Yields text low (Plains text) (Reader.firstOf
        ((if indexed then [place, declared] else [declared, initialized, beforeIn, place]).map
          fun reader => do
            let target ← reader
            Reader.firstOf [Reader.keyword "in", Reader.keyword "of"]
            return target)) := by
    split
    · exact .either (.overAll places) <| .only (.overAll declares)
    · exact .either (.overAll declares) <| .either (.overAll initializes) <|
        .either (.overAll initializesBefore) <| .only (.overAll places)
  refine .pass (.mark _) fun _ => .pass (.look .wordAhead) fun _ => ?_
  refine .pass (.look .afterWord) fun _ =>
    head ?_ (sound.initializedTarget _) (sound.initializedTarget _) ?_
  · exact .guard <| .pass .anyWord fun _ => .pass (.look .wordAhead) fun _ => .guard <|
      .bind sound.bindingTarget fun _ target =>
      .pass (.look (.endsHere _)) fun _ => .guard <| .done (.one target)
  · exact .guard <| .single <| .either sound.pattern <|
      .either (.bind (sound.operation _ _) fun _ operand => .ite (.done operand) .refuse) <|
      .only <| .ite .refuse (.token rfl (.named _))

theorem forPart : Yields text low (Plain text) (Reader.firstOf [Grammar.emptyStatement, do
    let part ← g.commaExpression .never
    mark ";"
    return part]) :=
  .either Reads.emptyStatement.asPlain <| .only <|
    .bind (sound.commaExpression _) fun _ part => .pass (.mark _) fun _ => .done part

theorem forStatement : Reads text low (Spanned text low) g.forStatement := by
  refine .atStart fun first before starts => .pass (.keyword _) fun _ => ?_
  refine .pass (.skipIf (.keyword _)) fun awaits => ?_
  refine .bind (.optional? (sound.forInHead awaits)) fun head heads => ?_
  cases head with
  | some head =>
      exact .bind (sound.commaExpression _) fun _ subject =>
        .pass (.mark _) fun _ =>
        .bind sound.body fun _ body =>
        .bind .stop fun _ stops => .pure fun _ behind =>
        .of_compound rfl before starts stops.1 (stops.2.2.trans behind) <|
          List.forall_mem_append.mpr ⟨(heads head rfl).inner,
            List.forall_mem_cons.mpr ⟨subject.inner, List.forall_mem_singleton.mpr body⟩⟩
  | none =>
      refine .guard <| .pass (.mark _) fun _ => .pass (.look (.test _)) fun _ => .guard <|
        .pass (.look .wordAhead) fun _ => ?_
      refine .join (.look (.letDeclares _)) (.look (.pure _)) fun _ _ =>
        .join sound.variableDeclaration.asPlain sound.forPart fun _ initial => ?_
      exact .bind sound.forPart fun _ condition =>
        .bind (.optionally (.single (sound.commaExpression _))) fun _ step =>
        .pass (.mark _) fun _ =>
        .bind sound.body fun _ body =>
        .bind .stop fun _ stops => .pure fun _ behind =>
        .of_compound rfl before starts stops.1 (stops.2.2.trans behind) <|
          List.forall_mem_append.mpr ⟨(Plains.cons initial (.cons condition step)).inner,
            List.forall_mem_singleton.mpr body⟩

theorem switchBody : Yields text low (Plain text) g.switchBody := by
  have statements {low : Nat} : Yields text low (fun nodes => ∀ node ∈ nodes, Inner text node)
      (Reader.many do
        if (← wordIs "case") || (← wordIs "default") then Reader.refuse
        g.statement) :=
    .many <| .pass (.look (.wordIs _)) fun _ => .pass (.look (.wordIs _)) fun _ =>
      .guard sound.inner
  have nothing {low : Nat} : Passes text low (Pure.pure () : Reader Unit) := .done trivial
  exact .nodeOfBraced rfl <| .braced
    (.either
      (.compound rfl <|
        .pass (.keyword _) fun _ =>
        .bind (.inRole _ (sound.commaExpression _)) fun _ value =>
        .pass (.exactly _) fun _ =>
        .bind statements fun _ body => .done (List.forall_mem_cons.mpr ⟨value.inner, body⟩)) <|
    .only <| .compound rfl <|
      .pass (.keyword _) fun _ => .pass (.exactly _) fun _ => statements) nothing

theorem switchStatement : Reads text low (Declared text low) g.switchStatement :=
  .declared <| .node rfl <|
    .pass (.keyword _) fun _ =>
    .bind (.inRole _ (sound.parenthesized _)) fun _ subject =>
    .bind sound.switchBody fun _ body => .done (.two subject (body.withRole _))

theorem catchClause : Yields text low (Plain text) g.catchClause :=
  .node rfl <|
    .pass (.keyword _) fun _ =>
    .bind (.optionally <|
      .pass (.mark _) fun _ =>
      .bind (.inRole _ sound.bindingTarget) fun _ target =>
      .bind (.optionally (.single (sound.typeAscription _))) fun _ type =>
      .pass (.mark _) fun _ => .done (.cons target type)) fun _ parameter =>
    .bind (sound.statementBlock _) fun _ body =>
    .done (parameter.append (.one (body.withRole _)))

theorem tryStatement : Reads text low (Declared text low) g.tryStatement :=
  .declared <| .node rfl <|
    .pass (.keyword _) fun _ =>
    .bind (.inRole _ (sound.statementBlock _)) fun _ body =>
    .pass (.look (.wordIs _)) fun _ =>
    .join (.single sound.catchClause) (.done .nil) fun _ handler =>
    .pass (.look (.wordIs _)) fun _ =>
    .join (.single <| .node rfl <|
      .pass (.keyword _) fun _ => .bind (sound.statementBlock _) fun _ body =>
      .done (.one (body.withRole _))) (.done .nil) fun _ finalizer =>
    .done ((Plains.cons body handler).append finalizer)

theorem leavingStatement (ordinary : kind.isOrdinary = true) (word : String) :
    Reads text low (Declared text low) (g.leavingStatement kind word) :=
  .declared <| .node ordinary <|
    .pass (.keyword _) fun _ => .pass (.look (.endsHere _)) fun _ =>
    .join (.done .nil) (.optionally (.single (sound.commaExpression _))) fun _ value => .guard <|
    .pass (.semicolon _) fun _ => .done value

theorem conditioned (isCompound : kind.isCompound = true) (word : String) :
    Reads text low (Spanned text low) (g.conditioned kind word) :=
  .compound isCompound <|
    .pass (.keyword _) fun _ =>
    .bind (sound.parenthesized _) fun _ subject =>
    .bind sound.inner fun _ body =>
    .done <| List.forall_mem_cons.mpr ⟨subject.inner,
      List.forall_mem_singleton.mpr (body.withRole _)⟩

theorem doStatement : Reads text low (Spanned text low) g.doStatement :=
  .compound rfl <|
    .pass (.keyword _) fun _ =>
    .bind sound.body fun _ body =>
    .pass (.keyword _) fun _ =>
    .bind (sound.parenthesized _) fun _ condition =>
    .pass (.maybe (.semicolon _)) fun _ =>
    .done <| List.forall_mem_cons.mpr ⟨body, List.forall_mem_singleton.mpr condition.inner⟩

theorem expressionStatement : Reads text low (Spanned text low) g.expressionStatement :=
  have statement : Reads text low _ g.expressionStatement :=
    .spanned <| .nodeOfFree rfl <|
      .bind (sound.commaExpression _) fun _ expression =>
      .pass (.semicolon _) fun _ => .done (.one expression)
  statement.weaken fun _ _ _ ⟨⟨grammatical, isStatement⟩, before, behind⟩ =>
    ⟨grammatical, by simp [isStatement], before, behind⟩

theorem labeledStatement : Reads text low (Spanned text low) g.labeledStatement :=
  .compound rfl <|
    .bind (.token rfl (.named _)) fun _ label =>
    .pass (.exactly _) fun _ =>
    .bind sound.inner fun _ body =>
    .done <| List.forall_mem_cons.mpr ⟨label.inner,
      List.forall_mem_singleton.mpr (body.withRole _)⟩

/-! ## Statements by their first token -/

theorem block (ending : Ending) : Reads text low (Spanned text low) (g.statementBlock ending) :=
  .asStatement (.declared (sound.statementBlock ending))

theorem bracedStatement : Reads text low (Spanned text low) g.bracedStatement :=
  .after (.test _) fun _ => .after (.test _) fun _ =>
  .ite sound.expressionStatement <|
  .ite (sound.block _) <|
  .objectOrBlock g sound.expressionStatement (sound.block _)

theorem namespaceStatement : Reads text low (Spanned text low) g.namespaceStatement :=
  .after (.test _) fun _ =>
  .ite sound.expressionStatement <|
  .bind (.declared (sound.namespaceExpression _)) fun _ declared =>
  .bind_le (.closedLine _) fun _ later _ => .pure fun _ last =>
    declared.1.widen (Nat.le_refl _) (later.trans last)

theorem exportOrExpression : Reads text low (Spanned text low) g.exportOrExpression :=
  have exports := Reads.asStatement (.declared sound.exportStatement)
  .after .afterWord fun _ =>
  .ite exports <| .either exports <| .only sound.expressionStatement

theorem classStatement : Reads text low (Spanned text low) g.classStatement :=
  .after (.test _) fun _ =>
  .ite (.unlessContinued (.asStatement (sound.classDeclaration _)) sound.expressionStatement)
    sound.expressionStatement

theorem wordStatement (word : List Char) :
    Reads text low (Spanned text low) (g.wordStatement word) :=
  have expression := sound.expressionStatement
  have declaration := Reads.asStatement (sound.anyDeclaration .afterExpression)
  have imports := Reads.asStatement (.declared sound.importStatement)
  .after .afterWord fun _ =>
  .ite sound.ifStatement <|
  .ite sound.forStatement <|
  .ite (sound.conditioned rfl _) <|
  .ite (sound.conditioned rfl _) <|
  .ite sound.doStatement <|
  .ite (.asStatement sound.switchStatement) <|
  .ite (.asStatement sound.tryStatement) <|
  .ite (.asStatement (.jump rfl _)) <|
  .ite (.asStatement (.jump rfl _)) <|
  .ite (.asStatement .debuggerStatement) <|
  .ite (.asStatement (sound.leavingStatement rfl _)) <|
  .ite (.asStatement (sound.leavingStatement rfl _)) <|
  .ite (.ite imports <| .either imports <|
    .either (.asStatement (.declared (.importAlias _))) <| .only expression) <|
  .ite declaration <|
  .after (.test _) fun _ =>
  .ite (.after (.test _) fun _ =>
    .ite (.unlessContinued (.asStatement sound.functionDeclaration) expression) expression) <|
  .ite sound.classStatement <|
  .ite expression <|
  .ite sound.labeledStatement <|
  .after .wordEnds fun _ => .ite expression <|
  .ite sound.exportOrExpression <|
  .after (.moduleFollows _ _) fun _ => .ite sound.namespaceStatement <|
  .ite declaration <|
  .either declaration <| .only expression

theorem anyStatement : Reads text low (Spanned text low) g.anyStatement := by
  refine .bind_le .opening fun {here} _ later _ => ?_
  suffices statement : Reads text here (Spanned text here) _ from
    statement.weaken fun _ _ _ spanned => spanned.widen later (Nat.le_refl _)
  refine .after .ahead fun _ => ?_
  split
  · exact .refuse
  · exact sound.bracedStatement
  · exact .asStatement .emptyStatement
  · exact .either (.asStatement (.declared sound.exportStatement)) <| .only sound.classStatement
  · exact .after .wordAhead fun _ => .ite sound.expressionStatement (sound.wordStatement _)

end Grammar.Sound

end ComponentSurvey.Syntax
