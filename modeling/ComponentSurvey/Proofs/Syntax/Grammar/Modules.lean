import ComponentSurvey.Proofs.Syntax.Grammar.Operators
import ComponentSurvey.Syntax.Grammar.Modules

/-!
# Imports and exports are plain

What a specifier imports is a single name.
-/

namespace ComponentSurvey.Syntax

open Text Reader Grammar

namespace Reads

variable {text : List Char} {low : Nat}

theorem fromClause : Yields text low (Plain text) fromClause :=
  .pass (.keyword _) fun _ => .inRole _ .stringLiteral

theorem namesInBraces {kind : Kind} (ordinary : kind.isOrdinary = true) {specifier : Reader Node}
    (specifiers : ∀ {low}, Yields text low (Plain text) specifier) :
    Yields text low (Plain text) (namesInBraces kind specifier) :=
  .node ordinary <|
    .pass (.mark _) fun _ =>
    .bind (.optionally (.commaSeparated specifiers)) fun _ specifiers =>
    .pass (.skipIf (.mark _)) fun _ =>
    .pass (.mark _) fun _ => .done specifiers

theorem typeOnly : Passes text low typeOnly :=
  .pass (.skipIf <| .either (.keyword _) <| .only <|
    .pass (.keyword _) fun _ =>
    .pass (.look .wordAhead) fun _ => .pass (.look .ahead) fun _ =>
    .ite (.done trivial) .refuse) fun _ => .done trivial

theorem importSpecifier : Yields text low (Plain text) importSpecifier :=
  have other {low : Nat} : Yields text low (fun nodes => ∀ node ∈ nodes, Named text node)
      (Reader.single (Reader.inRole .otherName (Reader.named .identifier))) :=
    .bind (.nameInRole _ (.name rfl (.named _))) fun _ name =>
    .done (List.forall_mem_singleton.mpr name)
  .nodeOfNames <|
    .pass .typeOnly fun _ =>
    .bind (.nameInRole _ <| .either (.name rfl (.named _)) <| .only <|
      .stringLeaf .scanString .scanString) fun _ name =>
    .pass (.look (.wordIs _)) fun _ =>
    .join_after (.keyword _) other (.done fun _ member => nomatch member) fun _ others => .guard <|
    .done (List.forall_mem_cons.mpr ⟨name, others⟩)

theorem namespaceImport : Yields text low (Plain text) namespaceImport :=
  .node rfl <|
    .pass (.mark _) fun _ => .pass (.keyword _) fun _ => .single (.token rfl (.named _))

theorem importClause : Yields text low (Plain text) importClause :=
  have group {low : Nat} : Yields text low (Plain text)
      (Reader.firstOf [Grammar.namespaceImport,
        Grammar.namesInBraces .namedImports Grammar.importSpecifier]) :=
    .either namespaceImport <| .only (.namesInBraces rfl importSpecifier)
  .node rfl <| .either (.single group) <| .only <|
    .bind (.token rfl (.named _)) fun _ name =>
    .bind (.optionally <| .pass (.mark _) fun _ => .single group) fun _ more =>
    .done (.cons name more)

theorem requireClause : Yields text low (Plain text) requireClause :=
  .node rfl <|
    .bind (.token rfl (.named _)) fun _ name =>
    .pass (.exactly _) fun _ => .pass (.keyword _) fun _ =>
    .pass (.mark _) fun _ =>
    .bind (.inRole _ .stringLiteral) fun _ source =>
    .pass (.mark _) fun _ => .done (.two name source)

theorem importAlias (mayRequire : Bool) : Yields text low (Plain text) (importAlias mayRequire) :=
  .node rfl <|
    .pass (.keyword _) fun _ =>
    .bind (.token rfl (.named _)) fun _ name =>
    .pass (.exactly _) fun _ =>
    .pass (.look (.wordIs _)) fun _ => .guard <|
    .bind (.token rfl (.named _)) fun _ first =>
    .bind (.nestedName first) fun _ target =>
    .pass (.semicolon _) fun _ => .done (.two name target)

theorem exportName : Yields text low (Plain text) exportName :=
  .either (.token rfl (.named _)) <| .only .stringLiteral

theorem exportSpecifier : Yields text low (Plain text) exportSpecifier :=
  .node rfl <|
    .pass (.skipIf <| .either (.keyword _) <| .only (.keyword _)) fun _ =>
    .bind (.inRole _ exportName) fun _ name =>
    .pass (.look (.wordIs _)) fun _ =>
    .join_after (.keyword _) (.single (.inRole _ exportName)) (.done .nil) fun _ other =>
    .done (.cons name other)

theorem exportClause : Yields text low (Plains text) exportClause :=
  .bind (.namesInBraces rfl exportSpecifier) fun _ clause =>
  .pass (.look (.endsHere _)) fun _ => .ite (.done (.one clause)) <|
  .bind (.optionally (.single .fromClause)) fun _ source => .done (.cons clause source)

theorem exportAll : Yields text low (Plains text) exportAll :=
  .either
    (.bind (.node rfl <| .pass (.mark _) fun _ => .pass (.keyword _) fun _ => .single exportName)
      fun _ group => .bind .fromClause fun _ source => .done (.two group source)) <|
  .only <| .pass (.mark _) fun _ => .single .fromClause

end Reads

namespace Grammar.Sound

variable {text : List Char} {low : Nat} {g : Grammar} (sound : g.Sound text)
include sound

theorem plainDeclaration (ending : Ending) :
    Yields text low (Plain text) (g.declaration ending) :=
  (sound.declaration _).weaken fun _ _ _ declared => declared.2

theorem importStatement : Yields text low (Plain text) g.importStatement := by
  refine .node rfl <| .pass (.keyword _) fun _ => .pass (.look (.test _)) fun _ => ?_
  refine .ite (.pass .anyWord fun _ => ?_) ?_
  all_goals
    exact .bind (.either (.bind .importClause fun _ clause =>
        .bind .fromClause fun _ source => .done (.two clause source)) <|
      .either (.single .requireClause) <| .only (.single (.inRole _ .stringLiteral)))
        fun _ parts =>
      .pass (.look (.endsHere _)) fun _ =>
      .join (.done .nil) (.optionally <| .single <| .node rfl <|
        .pass (.keyword _) fun _ => .single sound.objectLiteral) fun _ attributes =>
      .pass (.semicolon _) fun _ => .done (parts.append attributes)

theorem defaultExport : Yields text low (Plains text) g.defaultExport :=
  .either (.single (sound.plainDeclaration _)) <| .only <|
    .bind (.inRole _ (sound.expression _)) fun _ value =>
    .pass (.semicolon _) fun _ => .done (.one value)

theorem exportTail : Yields text low (Plains text) g.exportTail := by
  have closed {low : Nat} {reader : Reader (List Node)}
      (reads : Yields text low (Plains text) reader) : Yields text low (Plains text) (do
        let nodes ← reader
        Reader.semicolon .afterType
        return nodes) :=
    .bind reads fun _ nodes => .pass (.semicolon _) fun _ => .done nodes
  have aliasAlone {low : Nat} : Yields text low (Plains text)
      (Reader.single (Grammar.importAlias false)) := .single (.importAlias _)
  refine .pass (.look .ahead) fun _ => ?_
  split
  · exact closed .exportAll
  · exact closed .exportClause
  · exact .pass (.exactly _) fun _ =>
      .bind (sound.expression _) fun _ value =>
      .pass (.semicolon _) fun _ => .done (.one value)
  · exact .pass (.look .wordAhead) fun _ =>
      .ite (.pass (.keyword _) fun _ => sound.defaultExport) <|
      .pass (.look .afterWord) fun _ =>
      .ite (closed <| .pass (.keyword _) fun _ => .exportClause) <|
      .ite (closed <| .pass (.keyword _) fun _ => .pass (.keyword _) fun _ =>
        .single (.token rfl (.named _))) <|
      .ite (.pass (.look .afterWord) fun _ =>
        .ite (.pass (.keyword _) fun _ => aliasAlone) aliasAlone) <|
      .single (sound.plainDeclaration _)

theorem exportStatement : Yields text low (Plain text) g.exportStatement :=
  .node rfl <|
    .bind (.manyPlain sound.decorator) fun _ decorators =>
    .pass (.keyword _) fun _ =>
    .bind sound.exportTail fun _ parts => .done (decorators.append parts)

end Grammar.Sound

end ComponentSurvey.Syntax
