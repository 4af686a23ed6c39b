import ComponentSurvey.Proofs.Migration.TextRenames
import ComponentSurvey.Proofs.Syntax.Separation

/-!
# Where attributes are named

The names that a rename looks for are found in the syntax tree or, in a text that does not parse, by
the shape of an attribute.  Either way each find spells the name and stands behind the one before.
-/

namespace ComponentSurvey.AttributeRename

open Syntax Text

def Spells (text name : List Char) (span : Span) : Prop :=
  ∃ front back, text = front ++ (name ++ back) ∧ byteLength front = span.start ∧
    span.stop = span.start + byteLength name

/-- Each span begins behind the beginning of the one before it, and not before its end. -/
def InOrder (spans : List Span) : Prop :=
  spans.Pairwise fun first second => first.start < second.start ∧ first.stop ≤ second.start

section Spells

variable {text name : List Char} {span : Span}

theorem Spells.starts (spells : Spells text name span) : IsBoundary text span.start := by
  obtain ⟨front, back, whole, length, -⟩ := spells
  exact ⟨front, name ++ back, whole, length⟩

theorem Spells.stops (spells : Spells text name span) : IsBoundary text span.stop := by
  obtain ⟨front, back, whole, length, stop⟩ := spells
  refine ⟨front ++ name, back, ?_, ?_⟩
  · rw [whole, List.append_assoc]
  · rw [byteLength_append, length, stop]

theorem Spells.start_le_stop (spells : Spells text name span) : span.start ≤ span.stop := by
  obtain ⟨-, -, -, -, stop⟩ := spells
  omega

theorem spells_slice {start stop : Nat} (starts : IsBoundary text start)
    (stops : IsBoundary text stop) (ordered : start ≤ stop) :
    Spells text (slice text start stop) ⟨start, stop⟩ := by
  obtain ⟨front, back, whole, length, reaches⟩ := starts.exists_parts stops ordered
  exact ⟨front, back, whole, length, reaches.symm⟩

end Spells

/-! ## Names in a syntax tree -/

section Tree

variable {document : Document} {name : String} {span : Span}

/-- The name of an attribute: the first of its named parts, if that is a single word. -/
structure IsNameOf (attr found : Node) : Prop where
  head : attr.namedChildren.head? = some found
  kind : found.kind = .propertyIdentifier

theorem IsNameOf.mem_children {attr found : Node} (names : IsNameOf attr found) :
    found ∈ attr.children :=
  (List.mem_filter.mp (List.mem_of_mem_head? names.head)).1

theorem attributeSpan?_eq_some_iff {attr : Node} :
    attributeSpan? document name attr = some span ↔
      ∃ found, IsNameOf attr found ∧ document.text found = name ∧
        span = ⟨found.start, found.stop⟩ := by
  simp only [attributeSpan?, Option.bind_eq_bind, Option.bind_eq_some_iff]
  constructor
  · rintro ⟨found, head, given⟩
    obtain ⟨both, same⟩ := Option.ite_none_right_eq_some.mp given
    rw [Bool.and_eq_true, decide_eq_true_eq, decide_eq_true_eq] at both
    exact ⟨found, ⟨head, both.1⟩, both.2, (Option.some.inj same).symm⟩
  · rintro ⟨found, ⟨head, kind⟩, reads, rfl⟩
    exact ⟨found, head, by simp [kind, reads]⟩

theorem mem_attributeSpans :
    span ∈ attributeSpans document name ↔
      ∃ attr ∈ document.nodesOfKind .jsxAttribute, ∃ found, IsNameOf attr found ∧
        document.text found = name ∧ span = ⟨found.start, found.stop⟩ := by
  simp only [attributeSpans, List.mem_filterMap, attributeSpan?_eq_some_iff]

variable (grammatical : Grammatical document.source document.root)
include grammatical

theorem production_of_isNameOf {attr found : Node}
    (isAttribute : attr ∈ document.nodesOfKind .jsxAttribute)
    (names : IsNameOf attr found) :
    Production document.source found.kind found.start found.stop found.children := by
  obtain ⟨site, listed, rfl⟩ := List.mem_map.mp isAttribute
  have inside := Document.child_mem_sites (List.mem_filter.mp listed).1 names.mem_children
  exact (Document.grammatical_of_mem_sites grammatical inside).production

theorem spells_of_isNameOf {attr found : Node}
    (isAttribute : attr ∈ document.nodesOfKind .jsxAttribute)
    (names : IsNameOf attr found) :
    Spells document.source (document.chars found) ⟨found.start, found.stop⟩ := by
  have production := production_of_isNameOf grammatical isAttribute names
  exact spells_slice production.starts production.stops (production.covers names.kind).le

theorem spells_of_mem_attributeSpans (member : span ∈ attributeSpans document name) :
    Spells document.source name.toList span := by
  obtain ⟨attr, isAttribute, found, names, rfl, rfl⟩ := mem_attributeSpans.mp member
  rw [Document.text, String.toList_ofList]
  exact spells_of_isNameOf grammatical isAttribute names

theorem stop_le_of_above {first second : Site} (visited : first ∈ document.sites)
    (inside : second ∈ document.sites) (isAttribute : second.node.kind = .jsxAttribute)
    (above : first.node ∈ second.ancestors) {found : Node}
    (names : IsNameOf first.node found) : found.stop ≤ second.node.start := by
  -- the child of the outer attribute that the inner one is or lies in
  obtain ⟨child, below, around, within⟩ : ∃ child ∈ first.node.children,
      (child = second.node ∨ child ∈ second.ancestors) ∧ child.start ≤ second.node.start := by
    rcases Document.child_around inside above with below | ⟨child, below, isAbove⟩
    · exact ⟨second.node, below, .inl rfl, Nat.le_refl _⟩
    · exact ⟨child, below, .inr isAbove, (Document.liesIn_ancestor inside isAbove).start_le⟩
  have notMinor : (child.kind.isAtom || child.kind.isMinor) = false := by
    rcases around with rfl | isAbove
    · rw [isAttribute]
      rfl
    · by_contra single
      rw [Bool.not_eq_false] at single
      have isMinor := Document.isMinor_of_above grammatical inside isAbove single
      rw [isAttribute] at isMinor
      cases isMinor
  have isNamed : child.kind.isNamed = true := by
    cases kind : child.kind <;> simp_all [Kind.isNamed, Kind.isMinor]
  have ordered := (Document.liesIn_of_mem_sites visited).ordered
  obtain ⟨node, ancestors⟩ := first
  cases node with
  | mk kind role start stop children =>
      rcases Node.stop_le_of_head? ordered names.head below isNamed with rfl | before
      · rw [names.kind] at notMinor
        cases notMinor
      · exact before.trans within

theorem pairwise_names : (document.nodesOfKind .jsxAttribute).Pairwise fun first second =>
    ∀ found later, IsNameOf first found → IsNameOf second later →
      found.start < later.start ∧ found.stop ≤ later.start := by
  refine List.pairwise_map.mpr ?_
  refine ((Document.pairwise_sites document).filter _).imp_of_mem fun {first second} one other
    placed found later names laterNames => ?_
  obtain ⟨visited, -⟩ := List.mem_filter.mp one
  obtain ⟨inside, isAttribute⟩ := List.mem_filter.mp other
  have lies := Document.liesIn_of_mem_children (Document.liesIn_of_mem_sites visited).ordered
    names.mem_children
  have laterLies := Document.liesIn_of_mem_children
    (Document.liesIn_of_mem_sites inside).ordered laterNames.mem_children
  have covers : found.start < found.stop :=
    (production_of_isNameOf grammatical (List.mem_map_of_mem one) names).covers names.kind
  have before : found.stop ≤ second.node.start := by
    rcases placed with above | apart
    · exact stop_le_of_above grammatical visited inside (of_decide_eq_true isAttribute) above names
    · exact lies.le_stop.trans apart
  have starts := laterLies.start_le
  omega

theorem inOrder_attributeSpans (name : String) : InOrder (attributeSpans document name) := by
  refine List.pairwise_filterMap.mpr
    ((pairwise_names grammatical).imp fun apart _ found _ later => ?_)
  obtain ⟨node, names, -, rfl⟩ := attributeSpan?_eq_some_iff.mp found
  obtain ⟨other, otherNames, -, rfl⟩ := attributeSpan?_eq_some_iff.mp later
  exact apart node other names otherNames

theorem names_apart {first second : Node} (one : first ∈ document.nodesOfKind .jsxAttribute)
    (other : second ∈ document.nodesOfKind .jsxAttribute) {found later : Node}
    (names : IsNameOf first found) (laterNames : IsNameOf second later) :
    found = later ∨ found.stop ≤ later.start ∨ later.stop ≤ found.start := by
  have ordered := pairwise_names grammatical
  have apart : ∀ first ∈ document.nodesOfKind .jsxAttribute,
      ∀ second ∈ document.nodesOfKind .jsxAttribute, ∀ found later,
        IsNameOf first found → IsNameOf second later →
          found = later ∨ found.stop ≤ later.start ∨ later.stop ≤ found.start := by
    refine List.Pairwise.forall_of_forall_of_flip ?_ ?_ ?_
    · intro attr _ found later names laterNames
      exact .inl (Option.some.inj (names.head.symm.trans laterNames.head))
    · exact ordered.imp fun before found later names laterNames =>
        .inr (.inl (before found later names laterNames).2)
    · exact ordered.imp fun before found later names laterNames =>
        .inr (.inr (before later found laterNames names).2)
  exact apart first one second other found later names laterNames

/-- Of the names that are looked for, each is an attribute's own name or stands apart from it. -/
theorem start_eq_or_apart {attr found : Node}
    (isAttribute : attr ∈ document.nodesOfKind .jsxAttribute)
    (names : IsNameOf attr found) (member : span ∈ attributeSpans document name) :
    document.text found = name ∧ span.start = found.start ∨
      span.stop ≤ found.start ∨ found.stop ≤ span.start := by
  obtain ⟨other, listed, later, laterNames, reads, rfl⟩ := mem_attributeSpans.mp member
  rcases names_apart grammatical listed isAttribute laterNames names with rfl | apart
  · exact .inl ⟨reads, rfl⟩
  · exact .inr apart

end Tree

/-! ## Names in plain text -/

section PlainText

variable {name text after : List Char} {c : Char}

/-- What the search passes over behind the white space in front of a find: the name, and the text up
to the opening of the value. -/
theorem exists_passed (found : afterAttribute? name (c :: text) = some after) :
    ∃ passed, text = name ++ passed ++ after ∧ passed ≠ [] ∧
      text.take (text.length - after.length) = name ++ passed := by
  obtain ⟨_, tail, same, -, opens⟩ := afterAttribute?_eq_some_iff.mp found
  obtain ⟨-, rfl⟩ := List.cons.inj same
  obtain ⟨gap, opener, rfl, -, -⟩ := exists_of_value? opens
  have whole : name ++ (gap ++ opener :: after) = name ++ (gap ++ [opener]) ++ after := by simp
  have length : (name ++ (gap ++ opener :: after)).length - after.length =
      (name ++ (gap ++ [opener])).length := by simp; omega
  refine ⟨gap ++ [opener], whole, by simp, ?_⟩
  rw [length, whole, List.take_left]

theorem mem_foundSpans {front : List Char} {covered : Nat} {span : Span}
    (member : span ∈ foundSpans (afterAttribute? name) (byteLength name) (byteLength front) covered
      text) :
    Spells (front ++ text) name span ∧
      byteLength front + byteLength (text.take covered) < span.start := by
  induction text generalizing front covered with
  | nil => cases covered <;> cases member
  | cons c rest ih =>
      have positive := c.utf8Size_pos
      have length : byteLength front + c.utf8Size = byteLength (front ++ [c]) := by simp
      have shift : front ++ c :: rest = front ++ [c] ++ rest := by simp
      cases covered with
      | succ covered =>
          rw [foundSpans, length] at member
          obtain ⟨spells, behind⟩ := ih member
          rw [shift, List.take_succ_cons, byteLength_cons, ← Nat.add_assoc, length]
          exact ⟨spells, behind⟩
      | zero =>
          rw [List.take_zero, byteLength_nil, Nat.add_zero]
          rw [foundSpans, length] at member
          cases found : afterAttribute? name (c :: rest) with
          | none =>
              rw [found] at member
              obtain ⟨spells, behind⟩ := ih member
              exact ⟨shift ▸ spells, by omega⟩
          | some after =>
              rw [found] at member
              rcases List.mem_cons.mp member with rfl | later
              · obtain ⟨passed, whole, -, -⟩ := exists_passed found
                refine ⟨⟨front ++ [c], passed ++ after, by simp [whole], rfl, rfl⟩, ?_⟩
                dsimp only
                omega
              · obtain ⟨spells, behind⟩ := ih later
                exact ⟨shift ▸ spells, by omega⟩

theorem inOrder_foundSpans (front : List Char) (covered : Nat) :
    InOrder (foundSpans (afterAttribute? name) (byteLength name) (byteLength front) covered
      text) := by
  induction text generalizing front covered with
  | nil => cases covered <;> exact .nil
  | cons c rest ih =>
      have length : byteLength front + c.utf8Size = byteLength (front ++ [c]) := by simp
      cases covered with
      | succ covered =>
          rw [foundSpans, length]
          exact ih (front ++ [c]) covered
      | zero =>
          rw [foundSpans, length]
          cases found : afterAttribute? name (c :: rest) with
          | none => exact ih (front ++ [c]) 0
          | some after =>
              refine List.pairwise_cons.mpr ⟨fun span later => ?_, ih (front ++ [c]) _⟩
              -- the next find lies behind everything that this one passes over
              obtain ⟨passed, -, -, taken⟩ := exists_passed found
              obtain ⟨-, behind⟩ := mem_foundSpans later
              rw [taken, byteLength_append name, ← length] at behind
              dsimp only
              omega

theorem spells_of_mem_textSpans {span : Span} (member : span ∈ textSpans name text) :
    Spells text name span :=
  (mem_foundSpans (show span ∈ foundSpans _ _ (byteLength []) 0 text from member)).1

theorem inOrder_textSpans (name text : List Char) : InOrder (textSpans name text) :=
  inOrder_foundSpans [] 0

end PlainText

/-! ## Names in a text -/

variable (rename : AttributeRename) (path : String) (code : List Char)

/-- Whether a text parses or not, what a rename finds in it are names in order. -/
theorem spans_spec :
    (∀ span ∈ rename.spans path code, Spells code rename.old.toList span) ∧
      InOrder (rename.spans path code) := by
  rw [spans]
  cases parsed : Document.ofComponentFile? path code with
  | none => exact ⟨fun _ => spells_of_mem_textSpans, inOrder_textSpans _ _⟩
  | some document =>
      obtain rfl := Document.source_of_ofComponentFile? parsed
      have grammatical := Document.grammatical_of_ofComponentFile? parsed
      exact ⟨fun _ => spells_of_mem_attributeSpans grammatical,
        inOrder_attributeSpans grammatical _⟩

end ComponentSurvey.AttributeRename
