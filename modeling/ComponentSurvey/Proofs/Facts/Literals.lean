import ComponentSurvey.Proofs.Facts.Usages
import ComponentSurvey.Proofs.Syntax.Parsing
import ComponentSurvey.Proofs.Syntax.Separation
import Mathlib.Data.List.DropRight

/-!
# Props given as literals

A prop that is given a string or a template, also in parentheses, holds what is
between its quotes, but not the quotes at the ends of that.
-/

namespace ComponentSurvey

open Syntax

namespace Text

variable {drops : Char → Bool} {text : List Char}

theorem trimBoth_between {c : Char} (dropped : drops c = true) :
    trimBoth drops (c :: text ++ [c]) = trimBoth drops text := by
  change ((c :: text ++ [c]).dropWhile drops).rdropWhile drops =
    (text.dropWhile drops).rdropWhile drops
  rw [List.cons_append, List.dropWhile_cons_of_pos dropped, List.dropWhile_append]
  split
  · rename_i nothing
    rw [List.isEmpty_iff.mp nothing, List.dropWhile_cons_of_pos dropped, List.dropWhile_nil]
  · exact List.rdropWhile_concat_pos _ _ _ dropped

theorem trimBoth_eq_self_iff :
    trimBoth drops text = text ↔
      (∀ c ∈ text.head?, drops c = false) ∧ ∀ c ∈ text.getLast?, drops c = false := by
  have firstKept : text.dropWhile drops = text ↔ ∀ c ∈ text.head?, drops c = false := by
    cases text <;> simp [List.dropWhile_eq_self_iff]
  have lastKept : text.rdropWhile drops = text ↔ ∀ c ∈ text.getLast?, drops c = false := by
    rw [List.rdropWhile_eq_self_iff]
    cases text <;> simp [List.getLast?_eq_some_getLast]
  change (text.dropWhile drops).rdropWhile drops = text ↔ _
  rw [← firstKept, ← lastKept]
  constructor
  · intro kept
    have shorter := (List.rdropWhile_prefix drops (text.dropWhile drops)).length_le
    rw [kept] at shorter
    have first := (List.dropWhile_suffix drops).eq_of_length_le shorter
    exact ⟨first, by rwa [first] at kept⟩
  · rintro ⟨first, last⟩
    rw [first, last]

end Text

namespace Syntax.Node

/-- The expression in parentheses, or the node itself. -/
def unwrapped : Nat → Node → Node
  | 0, node => node
  | fuel + 1, node =>
    if node.kind = .parenthesizedExpression then
      (node.namedChildren.head?.map (unwrapped fuel)).getD node
    else node

/-- The expression in all the parentheses around it. -/
def bare (node : Node) : Node := node.unwrapped (node.size - 1)

theorem size_pos (node : Node) : 0 < node.size := by
  cases node
  exact Nat.succ_pos _

theorem size_lt_of_mem_children {node child : Node} (below : child ∈ node.children) :
    child.size < node.size := by
  cases node with
  | mk kind role start stop children =>
      have within := size_le_of_mem_sitesList (mem_sitesList_of_mem [] below)
      rw [size]
      exact Nat.lt_succ_of_le within

theorem mem_children_of_head? {node inner : Node} (first : node.namedChildren.head? = some inner) :
    inner ∈ node.children :=
  List.mem_of_mem_filter (List.mem_of_head? first)

theorem unwrapped_mem_preorder (node : Node) (fuel : Nat) :
    node.unwrapped fuel ∈ node.preorder := by
  induction fuel generalizing node with
  | zero => exact self_mem_preorder node
  | succ fuel ih =>
      rw [unwrapped]
      split
      · cases first : node.namedChildren.head? with
        | none => exact self_mem_preorder node
        | some inner =>
            exact preorder_subset (mem_preorder_of_mem_children (mem_children_of_head? first))
              (ih inner)
      · exact self_mem_preorder node

theorem unwrapped_eq {fuel other : Nat} {node : Node} (enough : node.size ≤ fuel + 1)
    (otherEnough : node.size ≤ other + 1) : node.unwrapped fuel = node.unwrapped other := by
  have alone {node : Node} (small : node.size ≤ 1) (fuel : Nat) : node.unwrapped fuel = node := by
    cases fuel with
    | zero => rfl
    | succ fuel =>
        rw [unwrapped]
        cases first : node.namedChildren.head? with
        | none => exact ite_self _
        | some inner =>
            have smaller := size_lt_of_mem_children (mem_children_of_head? first)
            have positive := inner.size_pos
            omega
  induction fuel generalizing node other with
  | zero => exact (alone enough other).symm
  | succ fuel ih =>
      cases other with
      | zero => exact alone otherEnough _
      | succ other =>
          simp only [unwrapped]
          cases first : node.namedChildren.head? with
          | none => rfl
          | some inner =>
              have smaller := size_lt_of_mem_children (mem_children_of_head? first)
              have same : inner.unwrapped fuel = inner.unwrapped other :=
                ih (by omega) (by omega)
              simp only [Option.map_some, same]

end Syntax.Node

theorem inferExpression_unwrapped (document : Document) (fuel : Nat) (node : Node) :
    inferExpression document (fuel + 1) node =
      inferExpression document 1 (node.unwrapped fuel) := by
  induction fuel generalizing node with
  | zero => rfl
  | succ fuel ih =>
      rw [Node.unwrapped]
      split
      · rename_i isWrapped
        rw [inferExpression, isWrapped]
        dsimp only
        cases first : node.namedChildren.head? with
        | none => simp [inferExpression, isWrapped, first]
        | some inner => exact ih inner
      · unfold inferExpression
        split <;> first | rfl | contradiction

theorem inferExpression_bare (document : Document) (node : Node) :
    inferExpression document node.size node = inferExpression document 1 node.bare := by
  rw [Node.bare, ← inferExpression_unwrapped, Nat.sub_add_cancel node.size_pos]

structure Syntax.Node.Gives (attr literal : Node) : Prop where
  isAttribute : attr.kind = .jsxAttribute
  isLiteral : literal.kind.quotes ≠ []
  given : ∃ name given others, attr.namedChildren = name :: given :: others ∧
    (given = literal ∧ given.kind = .string ∨
      given.kind = .jsxExpression ∧ ∃ inner ∈ given.namedChildren.head?, inner.bare = literal)

section Attributes

variable {attr literal : Node} (gives : attr.Gives literal)

include gives

theorem placedProp?_of_gives (document : Document) (component : String) :
    ∃ placed, placedProp? document component attr = some placed ∧
      placed.prop.kind = .string ∧
      placed.prop.value = some (.string (document.stringValue literal)) := by
  obtain ⟨isAttribute, isLiteral, name, given, others, parts, given'⟩ := gives
  have inferred : inferAttribute document (some given) =
      (.string, some (.string (document.stringValue literal))) := by
    rw [inferAttribute]
    rcases given' with ⟨rfl, isString⟩ | ⟨isBraced, inner, first, rfl⟩
    · rw [isString]
    · rw [isBraced, Option.mem_def.mp first]
      dsimp only
      rw [inferExpression_bare, inferExpression]
      revert isLiteral
      cases inner.bare.kind <;> simp [Kind.quotes]
  rw [placedProp?, isAttribute, parts]
  simp [inferred]

theorem literal_mem_nodes {document : Document} (visited : attr ∈ document.nodes) :
    literal ∈ document.nodes := by
  obtain ⟨-, -, name, given, others, parts, given'⟩ := gives
  have below : given ∈ attr.children :=
    List.mem_of_mem_filter (parts ▸ List.mem_cons_of_mem _ List.mem_cons_self :
      given ∈ attr.namedChildren)
  have inside := Document.mem_nodes_of_mem_preorder visited
    (mem_preorder_of_mem_children below)
  rcases given' with ⟨rfl, -⟩ | ⟨-, inner, first, rfl⟩
  · exact inside
  · exact Document.mem_nodes_of_mem_preorder inside
      (preorder_subset (mem_preorder_of_mem_children (Node.mem_children_of_head? first))
        (inner.unwrapped_mem_preorder _))

end Attributes

/-- The content of a literal, and a prop that holds it but for the quotes at its ends. -/
structure HoldsTrimmed (document : Document) (literal : Node) (content : List Char)
    (prop : GivenProp) : Prop where
  text : ∃ quote ∈ literal.kind.quotes, document.chars literal = quote :: content ++ [quote]
  kind : prop.kind = .string
  value : prop.value = some (.string (String.ofList (Text.trimBoth isQuote content)))

theorem isQuote_of_mem_quotes {kind : Kind} {quote : Char} (member : quote ∈ kind.quotes) :
    isQuote quote = true := by
  have all : ∀ quote ∈ kind.quotes, isQuote quote = true := by
    cases kind <;> simp [Kind.quotes, isQuote]
  exact all quote member

theorem HoldsTrimmed.value_eq_content_iff {document : Document} {literal : Node}
    {content : List Char} {prop : GivenProp} (holds : HoldsTrimmed document literal content prop) :
    prop.value = some (.string (String.ofList content)) ↔
      (∀ c ∈ content.head?, isQuote c = false) ∧ ∀ c ∈ content.getLast?, isQuote c = false := by
  rw [holds.value, ← Text.trimBoth_eq_self_iff, Option.some.injEq, Json.string.injEq,
    String.ofList_inj]

section Usages

variable {path : String} {source : List Char} {document : Document} {battery : List Predicate}
  {usage : Usage}

theorem exists_holdsTrimmed (found : Document.ofComponentFile? path source = some document)
    {attr literal : Node} (visited : attr ∈ document.nodes) (gives : attr.Gives literal)
    (component : String) :
    ∃ placed content, placedProp? document component attr = some placed ∧
      HoldsTrimmed document literal content placed.prop := by
  obtain ⟨placed, isPlaced, kind, value⟩ := placedProp?_of_gives gives document component
  obtain ⟨site, listed, rfl⟩ := List.mem_map.mp (literal_mem_nodes gives visited)
  have grammatical := Document.grammatical_of_mem_sites
    (Document.grammatical_of_ofComponentFile? found) listed
  obtain ⟨quote, isOne, content, text⟩ := grammatical.production.delimited gives.isLiteral
  refine ⟨placed, content, isPlaced, ⟨quote, isOne, text⟩, kind, ?_⟩
  rw [value, Document.stringValue, Document.chars, text,
    Text.trimBoth_between (isQuote_of_mem_quotes isOne)]

/-- Every literal that the tag of a usage is given is held by a prop of the usage. -/
theorem props_of_literals (found : Document.ofComponentFile? path source = some document)
    (member : usage ∈ extractUsages battery document) :
    ∃ element ∈ document.nodes,
      usage.props = (placedProps document usage.name element).map PlacedProp.prop ∧
      ∀ attr ∈ element.namedChildren, ∀ literal, attr.Gives literal →
        ∃ prop ∈ usage.props, ∃ content, HoldsTrimmed document literal content prop := by
  obtain ⟨element, visited, -, -, props, -⟩ := exists_tag_of_mem_extractUsages member
  refine ⟨element, visited, props, fun attr below literal gives => ?_⟩
  have inside := Document.mem_nodes_of_mem_preorder visited
    (mem_preorder_of_mem_children (List.mem_of_mem_filter below))
  obtain ⟨placed, content, isPlaced, holds⟩ := exists_holdsTrimmed found inside gives usage.name
  refine ⟨placed.prop, ?_, content, holds⟩
  rw [props]
  exact List.mem_map_of_mem (List.mem_filterMap.mpr ⟨attr, below, isPlaced⟩)

end Usages

def quotedLabels : List Char :=
  ("const x = <ArchbaseEdit label=\"'Name'\" hint=\x7b\"'Name'\"\x7d " ++
    "title=\x7b(\x60\"Name\"\x60)\x7d />;\n").toList

-- each content begins and ends with a quote of another kind
theorem quotedLabels_stripped :
    ((Document.ofComponentFile? "src/Form.tsx" quotedLabels).map fun document =>
      ((document.nodes.filter fun node => node.kind.quotes ≠ []).map document.text,
        (extractUsages Predicate.standard document).flatMap fun usage =>
          usage.props.map fun prop => (prop.kind, prop.value))) =
      some (["\"'Name'\"", "\"'Name'\"", "\x60\"Name\"\x60"],
        List.replicate 3 (.string, some (.string "Name"))) := by
  decide +kernel

end ComponentSurvey
