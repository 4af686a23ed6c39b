import ComponentSurvey.Proofs.Text.Runs
import ComponentSurvey.Syntax.Node

/-!
# What productions promise

Of every node of a tree the grammar promises where it lies in the text and what kinds of parts it
has: names have no parts of their own, attributes and all other parts of a tag stand behind the
bracket that opens it, and a statement stands in another one or before the brace that closes the
node around it.
-/

namespace ComponentSurvey.Syntax

open Text

/-! ## Kinds -/

namespace Kind

def isMinor : Kind → Bool
  | .comment | .pageComment | .optionalMark | .stringWord | .numberWord => true
  | _ => false

def isAtom : Kind → Bool
  | .identifier | .propertyIdentifier | .privatePropertyIdentifier | .typeIdentifier
  | .string => true
  | _ => false

def isName : Kind → Bool
  | .identifier | .propertyIdentifier | .typeIdentifier => true
  | _ => false

/-- The characters of which one opens and closes the text of a literal. -/
def quotes : Kind → List Char
  | .string => ['"', '\'']
  | .templateString => ['\x60']
  | _ => []

/-- The role of the name that a dotted name ends with or that a specifier imports. -/
def nameRole? : Kind → Option Role
  | .memberExpression | .nestedIdentifier => some .property
  | .nestedTypeIdentifier | .importSpecifier => some .name
  | _ => none

def opensTag : Kind → Bool
  | .jsxOpeningElement | .jsxSelfClosingElement => true
  | _ => false

def isOpenEnded : Kind → Bool
  | .program | .expressionStatement | .ifStatement | .elseClause | .forStatement | .forInStatement
  | .whileStatement | .withStatement | .doStatement | .labeledStatement | .switchCase
  | .switchDefault => true
  | _ => false

/-- Open-ended statements whose parts may be statements. -/
def isCompound (kind : Kind) : Bool := kind.isOpenEnded && kind != .expressionStatement

/-- Whether the kind is promised to stand only at places that do not ask for a statement or an
attribute. -/
def isPlain (kind : Kind) : Bool := !kind.isOpenEnded && kind != .jsxAttribute

/-- Whether nothing is promised of the text and the parts of the kind but that the parts stand where
they may. -/
def isFree (kind : Kind) : Bool :=
  !kind.isAtom && !kind.isMinor && kind.nameRole?.isNone && kind.quotes.isEmpty && !kind.opensTag

/-- Whether a node of the kind is plain if its parts are. -/
def isOrdinary (kind : Kind) : Bool := kind.isPlain && kind.isFree

def isBare (kind : Kind) : Bool := kind.isPlain && kind.quotes.isEmpty

def isBareName (kind : Kind) : Bool := kind.isAtom && kind.quotes.isEmpty

theorem isBare_of_isMinor {kind : Kind} (isMinor : kind.isMinor = true) : kind.isBare = true := by
  cases kind <;> first | rfl | cases isMinor

theorem isBare_of_isBareName {kind : Kind} (isBareName : kind.isBareName = true) :
    kind.isBare = true := by
  cases kind <;> first | rfl | cases isBareName

theorem isOrdinary_ite {condition : Prop} [Decidable condition] {kind other : Kind}
    (ordinary : kind.isOrdinary = true) (otherOrdinary : other.isOrdinary = true) :
    (if condition then kind else other).isOrdinary = true := by
  split
  · exact ordinary
  · exact otherOrdinary

theorem isName_of_isMinor {kind : Kind} (isMinor : kind.isMinor = true) : kind.isName = false := by
  cases kind <;> first | rfl | cases isMinor

theorem isFree_of_isCompound {kind : Kind} (isCompound : kind.isCompound = true) :
    kind.isFree = true := by
  cases kind <;> first | rfl | cases isCompound

end Kind

/-! ## Productions -/

/-- The text between two offsets has the same quote at both ends. -/
def Delimited (text quotes : List Char) (start stop : Nat) : Prop :=
  ∃ quote ∈ quotes, ∃ content, slice text start stop = quote :: content ++ [quote]

/-- What a node of a kind has to do with its span and its parts. -/
structure Production (text : List Char) (kind : Kind) (start stop : Nat) (parts : List Node) :
    Prop where
  starts : IsBoundary text start
  stops : IsBoundary text stop
  /-- The name of a property is not empty. -/
  covers : kind = .propertyIdentifier → start < stop
  delimited : kind.quotes ≠ [] → Delimited text kind.quotes start stop
  /-- A single name has no parts of its own. -/
  single : kind.isAtom || kind.isMinor → ∀ part ∈ parts, part.kind.isMinor
  named : ∀ role, kind.nameRole? = some role → ∀ part ∈ parts, part.role = some role →
    part.kind.isAtom
  /-- An attribute stands behind the bracket of its tag, and no statement stands beside it. -/
  tagged : ∀ part ∈ parts, part.kind = .jsxAttribute →
    (∃ bracket, start ≤ bracket ∧ bracket < part.start ∧ CharAt text bracket '<') ∧
      ∀ other ∈ parts, ¬ other.kind.isOpenEnded
  /-- A statement stands in a compound statement or between braces. -/
  nested : ∀ part ∈ parts, part.kind.isOpenEnded → kind.isCompound ∨
    start < part.start ∧ ∃ brace, part.stop ≤ brace ∧ brace < stop ∧ CharAt text brace '\x7d'
  /-- The parts of a tag stand behind its bracket. -/
  opened : kind.opensTag → ∀ part ∈ parts, part.kind.isMinor ∨ start < part.start

inductive Grammatical (text : List Char) : Node → Prop
  | mk {kind : Kind} {role : Option Role} {start stop : Nat} {parts : List Node}
    (production : Production text kind start stop parts)
    (within : ∀ part ∈ parts, Grammatical text part) :
    Grammatical text (.mk kind role start stop parts)

namespace Grammatical

variable {text : List Char} {node : Node}

theorem production (grammatical : Grammatical text node) :
    Production text node.kind node.start node.stop node.children := by
  cases grammatical with
  | mk production within => exact production

theorem part (grammatical : Grammatical text node) {part : Node} (member : part ∈ node.children) :
    Grammatical text part := by
  cases grammatical with
  | mk production within => exact within part member

theorem withRole (grammatical : Grammatical text node) (role : Role) :
    Grammatical text (node.withRole role) :=
  .mk grammatical.production fun _ member => grammatical.part member

end Grammatical

/-! ## Plain nodes -/

/-- A node that is neither an open-ended statement nor an attribute. -/
structure Plain (text : List Char) (node : Node) : Prop where
  grammatical : Grammatical text node
  isPlain : node.kind.isPlain = true

theorem Plain.not_attribute {text : List Char} {node : Node} (plain : Plain text node) :
    node.kind ≠ .jsxAttribute := by
  intro isAttribute
  have kind := plain.isPlain
  rw [isAttribute] at kind
  cases kind

theorem Plain.not_openEnded {text : List Char} {node : Node} (plain : Plain text node) :
    ¬ node.kind.isOpenEnded = true := by
  intro isOpenEnded
  have kind := plain.isPlain
  simp [Kind.isPlain, isOpenEnded] at kind

def Plains (text : List Char) (nodes : List Node) : Prop := ∀ node ∈ nodes, Plain text node

structure Token (text : List Char) (kind : Kind) (node : Node) : Prop where
  hasKind : node.kind = kind
  childless : node.children = []
  starts : IsBoundary text node.start
  stops : IsBoundary text node.stop
  covers : kind.isName = true → node.start < node.stop

structure Named (text : List Char) (node : Node) : Prop where
  plain : Plain text node
  isAtom : node.kind.isAtom = true

variable {text : List Char} {node : Node} {nodes others : List Node} {kind : Kind} {role : Role}
  {start stop : Nat}

namespace Plains

theorem nil : Plains text [] := fun _ member => nomatch member

theorem cons (first : Plain text node) (rest : Plains text nodes) : Plains text (node :: nodes) :=
  List.forall_mem_cons.mpr ⟨first, rest⟩

theorem one (only : Plain text node) : Plains text [node] := cons only nil

theorem two {second : Node} (first : Plain text node) (other : Plain text second) :
    Plains text [node, second] :=
  cons first (one other)

theorem append (first : Plains text nodes) (second : Plains text others) :
    Plains text (nodes ++ others) :=
  List.forall_mem_append.mpr ⟨first, second⟩

theorem flatten {lists : List (List Node)} (each : ∀ list ∈ lists, Plains text list) :
    Plains text lists.flatten := by
  intro node member
  obtain ⟨list, listed, inside⟩ := List.mem_flatten.mp member
  exact each list listed node inside

end Plains

namespace Production

theorem of_isFree (isFree : kind.isFree = true) (starts : IsBoundary text start)
    (stops : IsBoundary text stop)
    (tagged : ∀ part ∈ nodes, part.kind = .jsxAttribute →
      (∃ bracket, start ≤ bracket ∧ bracket < part.start ∧ CharAt text bracket '<') ∧
        ∀ other ∈ nodes, ¬ other.kind.isOpenEnded)
    (nested : ∀ part ∈ nodes, part.kind.isOpenEnded → kind.isCompound ∨
      start < part.start ∧
        ∃ brace, part.stop ≤ brace ∧ brace < stop ∧ CharAt text brace '\x7d') :
    Production text kind start stop nodes where
  starts := starts
  stops := stops
  covers := by rintro rfl; cases isFree
  delimited := by simp_all [Kind.isFree]
  single := by simp_all [Kind.isFree]
  named := by simp_all [Kind.isFree]
  tagged := tagged
  nested := nested
  opened := by simp_all [Kind.isFree]

theorem of_plains (isFree : kind.isFree = true) (starts : IsBoundary text start)
    (stops : IsBoundary text stop) (parts : Plains text nodes) :
    Production text kind start stop nodes :=
  .of_isFree isFree starts stops
    (fun part member isAttribute => absurd isAttribute (parts part member).not_attribute)
    (fun part member isOpenEnded => absurd isOpenEnded (parts part member).not_openEnded)

theorem of_childless (starts : IsBoundary text start) (stops : IsBoundary text stop)
    (covers : kind.isName = true → start < stop)
    (delimited : kind.quotes ≠ [] → Delimited text kind.quotes start stop) :
    Production text kind start stop [] where
  starts := starts
  stops := stops
  covers := by rintro rfl; exact covers rfl
  delimited := delimited
  single := by simp
  named := by simp
  tagged := by simp
  nested := by simp
  opened := by simp

end Production

/-- A part of a tag, which stands behind the bracket that opens the tag. -/
structure TagPart (text : List Char) (low : Nat) (part : Node) : Prop where
  grammatical : Grammatical text part
  closed : part.kind.isOpenEnded = false
  behind : ∃ bracket, low ≤ bracket ∧ bracket < part.start ∧ CharAt text bracket '<'

theorem Plain.of_tag {role : Option Role} (opensTag : kind.opensTag = true)
    (starts : IsBoundary text start) (stops : IsBoundary text stop)
    (parts : ∀ part ∈ nodes, TagPart text start part) :
    Plain text (.mk kind role start stop nodes) := by
  have isTag : kind.isPlain = true ∧ kind.isAtom = false ∧ kind.isMinor = false ∧
      kind.nameRole? = none ∧ kind.quotes = [] ∧ kind ≠ .propertyIdentifier := by
    cases kind <;> first | exact ⟨rfl, rfl, rfl, rfl, rfl, nofun⟩ | cases opensTag
  have closed : ∀ part ∈ nodes, ¬ part.kind.isOpenEnded = true := fun part member =>
    Bool.not_eq_true _ ▸ (parts part member).closed
  refine ⟨.mk ⟨starts, stops, ?_, ?_, ?_, ?_, ?_, ?_, ?_⟩ fun part member =>
    (parts part member).grammatical, isTag.1⟩
  · simp [isTag]
  · simp [isTag]
  · simp [isTag]
  · simp [isTag]
  · exact fun part member _ => ⟨(parts part member).behind, closed⟩
  · exact fun part member isOpenEnded => absurd isOpenEnded (closed part member)
  · intro _ part member
    obtain ⟨bracket, behind, before, -⟩ := (parts part member).behind
    exact .inr (behind.trans_lt before)

/-- Parts between braces that stand between two offsets. -/
def Braced (text : List Char) (low : Nat) (parts : List Node) (high : Nat) : Prop :=
  ∀ part ∈ parts, Grammatical text part ∧ part.kind ≠ .jsxAttribute ∧ low < part.start ∧
    ∃ brace, part.stop ≤ brace ∧ brace < high ∧ CharAt text brace '\x7d'

theorem Braced.widen {low high higher : Nat} (behind : high ≤ higher)
    (parts : Braced text low nodes high) : Braced text low nodes higher := by
  intro part member
  obtain ⟨grammatical, noAttribute, after, brace, before, inside, there⟩ := parts part member
  exact ⟨grammatical, noAttribute, after, brace, before, inside.trans_le behind, there⟩

theorem Plain.of_braced {role : Option Role} (ordinary : kind.isOrdinary = true)
    (starts : IsBoundary text start) (stops : IsBoundary text stop)
    (parts : Braced text start nodes stop) : Plain text (.mk kind role start stop nodes) := by
  obtain ⟨isPlain, isFree⟩ := Bool.and_eq_true_iff.mp ordinary
  refine ⟨.mk (.of_isFree isFree starts stops ?_ ?_) fun part member => (parts part member).1,
    isPlain⟩
  · exact fun part member isAttribute => absurd isAttribute (parts part member).2.1
  · intro part member _
    obtain ⟨-, -, behind, brace, before, inside, there⟩ := parts part member
    exact .inr ⟨behind, brace, before, inside, there⟩

theorem Grammatical.of_plains {role : Option Role} (isFree : kind.isFree = true)
    (starts : IsBoundary text start) (stops : IsBoundary text stop) (parts : Plains text nodes) :
    Grammatical text (.mk kind role start stop nodes) :=
  .mk (.of_plains isFree starts stops parts) fun part member => (parts part member).grammatical

namespace Plain

theorem of_ordinary {role : Option Role} (ordinary : kind.isOrdinary = true)
    (starts : IsBoundary text start) (stops : IsBoundary text stop) (parts : Plains text nodes) :
    Plain text (.mk kind role start stop nodes) :=
  have ⟨isPlain, isFree⟩ := Bool.and_eq_true_iff.mp ordinary
  ⟨.of_plains isFree starts stops parts, isPlain⟩

theorem withRole (plain : Plain text node) (role : Role) : Plain text (node.withRole role) :=
  ⟨plain.grammatical.withRole role, plain.isPlain⟩

theorem of_path {role : Option Role} {path name : Node} {pathRole nameRole : Role}
    (ends : kind.nameRole? = some nameRole) (differs : pathRole ≠ nameRole)
    (leads : Plain text path) (named : Named text name)
    (starts : IsBoundary text start) (stops : IsBoundary text stop) :
    Plain text (.mk kind role start stop [path.withRole pathRole, name]) := by
  have plainParts : Plains text [path.withRole pathRole, name] :=
    .two (leads.withRole _) named.plain
  have isPath : kind.isPlain = true ∧ kind.isAtom = false ∧ kind.isMinor = false ∧
      kind.quotes = [] ∧ kind.opensTag = false := by
    cases kind <;> first | exact ⟨rfl, rfl, rfl, rfl, rfl⟩ | cases ends
  refine ⟨.mk ⟨starts, stops, ?_, ?_, ?_, ?_, ?_, ?_, by simp [isPath]⟩ fun part member =>
    (plainParts part member).grammatical, isPath.1⟩
  · rintro rfl
    cases ends
  · simp [isPath]
  · simp [isPath]
  · intro role same
    obtain rfl : nameRole = role := Option.some.inj (ends.symm.trans same)
    simp [Node.withRole, Node.role, differs, named.isAtom]
  · exact fun part member isAttribute => absurd isAttribute (plainParts part member).not_attribute
  · exact fun part member isOpenEnded => absurd isOpenEnded (plainParts part member).not_openEnded

theorem starts (plain : Plain text node) : IsBoundary text node.start :=
  plain.grammatical.production.starts

theorem stops (plain : Plain text node) : IsBoundary text node.stop :=
  plain.grammatical.production.stops

theorem withKind_of_named (named : Named text node) {other : Kind}
    (ordinary : other.isOrdinary = true) : Plain text (node.withKind other) := by
  refine of_ordinary ordinary named.plain.starts named.plain.stops fun part member => ?_
  have minor := named.plain.grammatical.production.single (by simp [named.isAtom]) part member
  refine ⟨named.plain.grammatical.part member, ?_⟩
  cases kind : part.kind <;> simp_all [Kind.isMinor, Kind.isPlain, Kind.isOpenEnded]

theorem asMember (plain : Plain text node) (isNested : node.kind = .nestedIdentifier) :
    Plain text (node.withKind .memberExpression) := by
  have production := plain.grammatical.production
  rw [isNested] at production
  exact ⟨.mk ⟨production.starts, production.stops, nofun, fun quoted => absurd rfl quoted,
    production.single, production.named, production.tagged, production.nested, nofun⟩
    fun _ member => plain.grammatical.part member, rfl⟩

theorem leading (plain : Plain text node) :
    Plain text
      (if node.kind = .nestedIdentifier then node.withKind .memberExpression else node) := by
  split
  · rename_i isNested
    exact plain.asMember isNested
  · exact plain

/-- A dotted name, each part after the point around all that is before it. -/
theorem foldl_nested {names : List Node} (asPart : Node → Node)
    (starts : IsBoundary text start)
    (named : ∀ name ∈ names, Named text (asPart name) ∧ IsBoundary text name.stop)
    {path : Node} (plain : Plain text path) :
    Plain text (names.foldl (fun path name =>
      .mk .nestedIdentifier none start name.stop
        [(if path.kind = .nestedIdentifier then path.withKind .memberExpression
          else path).withRole .object, asPart name]) path) := by
  induction names generalizing path with
  | nil => exact plain
  | cons name rest ih =>
      obtain ⟨isName, stops⟩ := named name List.mem_cons_self
      refine ih (fun other member => named other (List.mem_cons_of_mem _ member)) ?_
      exact of_path rfl (by decide) plain.leading isName starts stops

end Plain

namespace Token

theorem withKind (token : Token text kind node) (isName : kind.isName = true) (other : Kind) :
    Token text other (node.withKind other) :=
  ⟨rfl, token.childless, token.starts, token.stops, fun _ => token.covers isName⟩

theorem grammatical (token : Token text kind node)
    (delimited : kind.quotes ≠ [] → Delimited text kind.quotes node.start node.stop) :
    Grammatical text node := by
  obtain ⟨hasKind, childless, starts, stops, covers⟩ := token
  cases node with
  | mk kind role start stop parts =>
      obtain rfl : parts = [] := childless
      obtain rfl : kind = _ := hasKind
      exact .mk (.of_childless starts stops covers delimited) fun _ member => nomatch member

theorem plain (token : Token text kind node) (isBare : kind.isBare = true) : Plain text node := by
  obtain ⟨isPlain, unquoted⟩ := Bool.and_eq_true_iff.mp isBare
  exact ⟨token.grammatical fun quoted => absurd (List.isEmpty_iff.mp unquoted) quoted,
    token.hasKind ▸ isPlain⟩

theorem name (token : Token text kind node) (isBareName : kind.isBareName = true) :
    Named text node :=
  ⟨token.plain (Kind.isBare_of_isBareName isBareName),
    token.hasKind ▸ (Bool.and_eq_true_iff.mp isBareName).1⟩

end Token

theorem Named.withRole (named : Named text node) (role : Role) : Named text (node.withRole role) :=
  ⟨named.plain.withRole role, named.isAtom⟩

theorem Plain.of_names {role : Option Role} (starts : IsBoundary text start)
    (stops : IsBoundary text stop) (names : ∀ node ∈ nodes, Named text node) :
    Plain text (.mk .importSpecifier role start stop nodes) := by
  refine ⟨.mk ⟨starts, stops, nofun, fun quoted => absurd rfl quoted, ?_,
    fun _ _ part member _ => (names part member).isAtom, ?_, ?_, nofun⟩
    fun part member => (names part member).plain.grammatical, rfl⟩
  · simp [Kind.isAtom, Kind.isMinor]
  · exact fun part member isAttribute => absurd isAttribute (names part member).plain.not_attribute
  · exact fun part member isOpenEnded => absurd isOpenEnded (names part member).plain.not_openEnded

structure Template (text : List Char) (kind : Kind) (node : Node) : Prop where
  hasKind : node.kind = kind
  parts : Plains text node.children
  starts : IsBoundary text node.start
  stops : IsBoundary text node.stop
  delimited : Delimited text ['\x60'] node.start node.stop

theorem Template.plain (template : Template text kind node)
    (ordinary : kind.isOrdinary = true ∨ kind = .templateString) : Plain text node := by
  obtain ⟨hasKind, parts, starts, stops, delimited⟩ := template
  cases node with
  | mk other role start stop nodes =>
      obtain rfl : other = kind := hasKind
      rcases ordinary with ordinary | rfl
      · exact .of_ordinary ordinary starts stops parts
      · refine ⟨.mk ⟨starts, stops, nofun, fun _ => delimited, ?_, ?_, ?_, ?_, nofun⟩
          fun part member => (parts part member).grammatical, rfl⟩
        · simp [Kind.isAtom, Kind.isMinor]
        · exact nofun
        · exact fun part member isAttribute => absurd isAttribute (parts part member).not_attribute
        · exact fun part member isOpenEnded => absurd isOpenEnded (parts part member).not_openEnded

theorem Plain.of_words {role : Option Role} (isBareName : kind.isBareName = true)
    (other : kind ≠ .propertyIdentifier)
    (starts : IsBoundary text start) (stops : IsBoundary text stop)
    (words : ∀ node ∈ nodes, ∃ word : Kind, word.isMinor = true ∧ Token text word node) :
    Plain text (.mk kind role start stop nodes) := by
  have minor : ∀ part ∈ nodes, part.kind.isMinor = true ∧ Plain text part := by
    intro part member
    obtain ⟨word, isMinor, token⟩ := words part member
    exact ⟨token.hasKind ▸ isMinor, token.plain (Kind.isBare_of_isMinor isMinor)⟩
  have plainParts : Plains text nodes := fun part member => (minor part member).2
  have isName : kind.isPlain = true ∧ kind.nameRole? = none ∧ kind.quotes = [] := by
    cases kind <;> first | exact ⟨rfl, rfl, rfl⟩ | cases isBareName
  refine ⟨.mk ⟨starts, stops, fun same => absurd same other, fun quoted => absurd isName.2.2 quoted,
    fun _ part member => (minor part member).1, ?_, ?_, ?_,
    fun _ part member => .inl (minor part member).1⟩
    fun part member => (plainParts part member).grammatical, isName.1⟩
  · simp [isName]
  · exact fun part member isAttribute => absurd isAttribute (plainParts part member).not_attribute
  · exact fun part member isOpenEnded => absurd isOpenEnded (plainParts part member).not_openEnded

end ComponentSurvey.Syntax
