import ComponentSurvey.Proofs.Syntax.Reading
import ComponentSurvey.Syntax.Grammar.Basic

/-!
# A sound grammar

A grammar is sound for a text if what its readers answer inside that text is grammatical.  The
modules beside this one show that one more level on top of a sound grammar is sound.
-/

namespace ComponentSurvey.Syntax

open Text Reader

structure Spanned (text : List Char) (low : Nat) (node : Node) (high : Nat) : Prop where
  grammatical : Grammatical text node
  not_attribute : node.kind ≠ .jsxAttribute
  low_le : low ≤ node.start
  le_high : node.stop ≤ high

structure Grammar.Sound (text : List Char) (g : Grammar) : Prop where
  operation : ∀ {low} pending ending, Yields text low (Plain text) (g.operation pending ending)
  typeOperation : ∀ {low} pending ending,
    Yields text low (Plain text) (g.typeOperation pending ending)
  pattern : ∀ {low}, Yields text low (Plain text) g.pattern
  element : ∀ {low}, Yields text low (Plain text) g.element
  statement : ∀ {low}, Reads text low (Spanned text low) g.statement
  declaration : ∀ {low} ending,
    Reads text low (fun node stop => Spanned text low node stop ∧ Plain text node)
      (g.declaration ending)

namespace Grammar

variable {text : List Char} {low : Nat} {g : Grammar}

theorem sound_empty (text : List Char) : empty.Sound text where
  operation _ _ := .refuse
  typeOperation _ _ := .refuse
  pattern := .refuse
  element := .refuse
  statement := .refuse
  declaration _ := .refuse

end Grammar

namespace Reads

open Grammar

variable {text : List Char} {low : Nat}

theorem stringLiteral : Yields text low (Plain text) stringLiteral :=
  (stringLeaf .scanString .scanString).weaken fun _ _ _ literal => literal.plain

theorem numberLiteral : Yields text low (Plain text) numberLiteral :=
  (leaf .number .scanNumber rfl).token rfl

theorem optionalMarkNode : Yields text low (Plain text) optionalMarkNode :=
  atStart fun _ _ starts => (mark "?").pass fun _ => stop.bind fun _ stops =>
    done (Token.plain ⟨rfl, rfl, starts, stops.1, nofun⟩ rfl)

theorem scanTemplateText_splits (escapes : Bool) : Splits (scanTemplateText escapes) := by
  intro text passed rest matched
  unfold scanTemplateText at matched
  split at matched
  · cases matched
  · cases matched
    exact (List.take_append_drop _ text).symm

theorem templateText (escapes : Bool) :
    Passes text low (Reader.immediate (scanTemplateText escapes)) :=
  immediate (scanTemplateText_splits escapes)

theorem template {kind : Kind}
    (escapes : Bool) {hole : Reader Node} (reads : ∀ {low}, Yields text low (Plain text) hole) :
    Yields text low (Template text kind) (template kind escapes hole) := by
  have holes {low : Nat} : Yields text low (Plains text) (Reader.many (do
      let hole ← hole
      let _ ← Reader.immediate (scanTemplateText escapes)
      return hole)) :=
    .manyPlain <| .bind reads fun _ plain => .pass (.templateText _) fun _ => .done plain
  intro input stands value after found
  have settled := Input.isSettled_skipBlanks (Nat.lt_succ_self input.rest.length)
  have here := stands.skipBlanks (input.rest.length + 1)
  obtain ⟨⟨parts, closed⟩, found, same⟩ := Option.bind_eq_some_iff.mp found
  obtain ⟨⟨_, opened⟩, opens, found⟩ := Option.bind_eq_some_iff.mp found
  obtain ⟨⟨_, begun⟩, begins, found⟩ := Option.bind_eq_some_iff.mp found
  obtain ⟨⟨_, ended⟩, reading, found⟩ := Option.bind_eq_some_iff.mp found
  obtain ⟨⟨_, behind⟩, closes, found⟩ := Option.bind_eq_some_iff.mp found
  cases found
  cases same
  obtain ⟨opening, opensAt⟩ := mark_character_at (c := '\x60') rfl here settled opens
  obtain ⟨standsOpened, -⟩ := mark _ _ here _ _ opens
  obtain ⟨standsBegun, -⟩ := templateText escapes _ standsOpened.here _ _ begins
  obtain ⟨standsEnded, plain⟩ := holes _ standsBegun.here _ _ reading
  obtain ⟨closing, closesAt⟩ := character_at standsEnded closes
  obtain ⟨standsBehind, -⟩ := immediate (.front _ _) _ standsEnded _ _ closes
  have apart := standsBegun.low_le.trans standsEnded.low_le
  rw [opensAt] at apart
  obtain ⟨content, whole⟩ := opening.slice_between closing apart
  rw [← closesAt] at whole
  exact ⟨standsBehind.from_le (standsOpened.low_le.trans standsBegun.low_le), rfl, plain,
    here.boundary, standsBehind.boundary, '\x60', List.mem_singleton_self _, content, whole⟩

theorem modifier (ending : Ending) (word : String) : Passes text low (modifier ending word) :=
  .skipIf <|
    .pass (.keyword _) fun _ =>
    .pass (.look (.endsHere _)) fun _ => .guard <|
    .pass (.look .ahead) fun _ => .ite .refuse (.done trivial)

theorem modifierNode {kind : Kind} (isBare : kind.isBare = true)
    (other : kind.isName = false) (ending : Ending) (words : List String) :
    Yields text low (Plains text) (modifierNode kind ending words) :=
  .atStart fun _ _ starts =>
  .pass (.findM? (.modifier ending)) fun _ =>
  .ite
    (.bind .stop fun _ stops =>
      .done (.one (Token.plain
        ⟨rfl, rfl, starts, stops.1, fun isName => nomatch other.symm.trans isName⟩ isBare)))
    (.done .nil)

theorem propertyModifiers (ending : Ending) :
    Yields text low (Plains text) (propertyModifiers ending) :=
  .bind (.modifierNode rfl rfl _ _) fun _ access =>
  .pass (.modifier _ _) fun _ =>
  .bind (.modifierNode rfl rfl _ _) fun _ override =>
  .pass (.modifier _ _) fun _ =>
  .done (access.append override)

theorem methodModifiers (ending : Ending) : Passes text low (methodModifiers ending) :=
  .pass (.modifier _ _) fun _ =>
  .pass (.skipIf (.mark _)) fun _ => .ite (.done trivial) <|
  .pass (.modifier _ _) fun _ => .ite (.done trivial) <|
  .pass (.modifier _ _) fun _ => .done trivial

theorem nestedName {first : Node} (plain : Plain text first) :
    Yields text low (Plain text) (nestedName first) :=
  .bind (.manyAfter (.exactly _) (.nameInRole _ (.name rfl (.named _)))) fun _ named => .done <|
    Plain.foldl_nested id plain.starts
      (fun name member => ⟨named name member, (named name member).plain.stops⟩) plain

end Reads

namespace Grammar.Sound

variable {text : List Char} {low : Nat} {g : Grammar} (sound : g.Sound text)
include sound

theorem expression (ending : Ending) : Yields text low (Plain text) (g.expression ending) :=
  sound.operation _ _

theorem type (ending : Ending) : Yields text low (Plain text) (g.type ending) :=
  sound.typeOperation _ _

theorem computedName : Yields text low (Plain text) g.computedName :=
  .node rfl <|
    .pass (.mark _) fun _ =>
    .bind (sound.expression _) fun _ inner =>
    .pass (.mark _) fun _ => .done (.one inner)

theorem propertyName : Yields text low (Plain text) g.propertyName :=
  .either (.token rfl (.named _)) <| .either .stringLiteral <| .either .numberLiteral <|
  .either sound.computedName <| .only <| .token rfl (.leaf _ .scanPrivateName rfl)

theorem initializer (ending : Ending) : Yields text low (Plain text) (g.initializer ending) :=
  .pass (.exactly _) fun _ => .inRole _ (sound.expression _)

theorem spread (ending : Ending) : Yields text low (Plain text) (g.spread ending) :=
  .node rfl <|
    .pass (.mark _) fun _ => .bind (sound.expression _) fun _ inner => .done (.one inner)

theorem arguments : Yields text low (Plain text) g.arguments :=
  .node rfl <|
    .pass (.mark _) fun _ =>
    .bind (.commaList <| .either (sound.spread _) <|
      .only (sound.expression _)) fun _ items =>
    .pass (.mark _) fun _ => .done items

end Grammar.Sound

end ComponentSurvey.Syntax
