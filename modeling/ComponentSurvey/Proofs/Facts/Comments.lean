import ComponentSurvey.Proofs.Facts.Literals

/-!
# Comments in attributes

Comments are nodes of the tree like any other.  One that stands first where the value
of an attribute is looked for is taken for the value; all others change no prop.
-/

namespace ComponentSurvey

open Syntax

namespace Syntax

/-! ## Trees without comments -/

def Kind.isComment : Kind → Bool
  | .comment | .pageComment => true
  | _ => false

namespace Node

mutual
def withoutComments : Node → Node
  | mk kind role start stop children => mk kind role start stop (withoutCommentsList children)

def withoutCommentsList : List Node → List Node
  | [] => []
  | node :: rest =>
    if node.kind.isComment then withoutCommentsList rest
    else node.withoutComments :: withoutCommentsList rest
end

variable (node : Node)

@[simp] theorem kind_withoutComments : node.withoutComments.kind = node.kind := by
  cases node
  simp only [withoutComments, kind]

@[simp] theorem start_withoutComments : node.withoutComments.start = node.start := by
  cases node
  simp only [withoutComments, start]

@[simp] theorem stop_withoutComments : node.withoutComments.stop = node.stop := by
  cases node
  simp only [withoutComments, stop]

theorem withoutCommentsList_eq (nodes : List Node) :
    withoutCommentsList nodes =
      (nodes.filter fun node => !node.kind.isComment).map withoutComments := by
  induction nodes with
  | nil => simp [withoutCommentsList]
  | cons first rest ih =>
      cases isComment : first.kind.isComment <;> simp [withoutCommentsList, isComment, ih]

theorem namedChildren_withoutComments :
    node.withoutComments.namedChildren =
      (node.namedChildren.filter fun child => !child.kind.isComment).map withoutComments := by
  cases node
  simp only [withoutComments, namedChildren, children, withoutCommentsList_eq, List.filter_map,
    List.filter_filter, Function.comp_def, kind_withoutComments, Bool.and_comm]

mutual
theorem size_withoutComments_le (node : Node) : node.withoutComments.size ≤ node.size := by
  cases node with
  | mk kind role start stop children =>
      simp only [withoutComments, size]
      have below := sizeList_withoutComments_le children
      omega

theorem sizeList_withoutComments_le (nodes : List Node) :
    sizeList (withoutCommentsList nodes) ≤ sizeList nodes := by
  cases nodes with
  | nil => simp [withoutCommentsList]
  | cons first rest =>
      have here := size_withoutComments_le first
      have others := sizeList_withoutComments_le rest
      rw [withoutCommentsList]
      split <;> simp only [sizeList] <;> omega
end

/-! ### Comments put back -/

theorem withoutCommentsList_append (first second : List Node) :
    withoutCommentsList (first ++ second) =
      withoutCommentsList first ++ withoutCommentsList second := by
  simp only [withoutCommentsList_eq, List.filter_append, List.map_append]

theorem withoutCommentsList_comments {comments : List Node}
    (each : ∀ comment ∈ comments, comment.kind.isComment = true) :
    withoutCommentsList comments = [] := by
  simpa [withoutCommentsList_eq] using each

mutual
/-- Where comments are put makes no difference to the tree without them. -/
theorem withoutComments_withComments {comments : List Node}
    (each : ∀ comment ∈ comments, comment.kind.isComment = true) (node : Node) :
    (node.withComments comments).withoutComments = node.withoutComments := by
  cases node with
  | mk kind role start stop children =>
      simp only [withComments, withoutComments, withoutCommentsList_mergeComments each children]

theorem withoutCommentsList_mergeComments {comments : List Node}
    (each : ∀ comment ∈ comments, comment.kind.isComment = true) (nodes : List Node) :
    withoutCommentsList (mergeComments comments nodes) = withoutCommentsList nodes := by
  cases nodes with
  | nil => exact withoutCommentsList_comments each
  | cons first rest =>
      have among {others : List Node} (below : others ⊆ comments) :
          ∀ comment ∈ others, comment.kind.isComment = true :=
        fun comment member => each comment (below member)
      have before := splitComments_fst_subset first.start comments
      have others := splitComments_snd_subset first.start comments
      have inside := List.Subset.trans (splitComments_fst_subset first.stop _) others
      have behind := List.Subset.trans (splitComments_snd_subset first.stop _) others
      have sameKind (comments : List Node) : (first.withComments comments).kind = first.kind :=
        (replaces_withComments first comments).kind
      simp only [mergeComments]
      rw [withoutCommentsList_append, withoutCommentsList_comments (among before),
        List.nil_append, withoutCommentsList, withoutCommentsList, sameKind,
        withoutComments_withComments (among inside) first,
        withoutCommentsList_mergeComments (among behind) rest]
end

/-! ### Expressions -/

variable {node : Node}

theorem unwrapped_of_isComment (isComment : node.kind.isComment = true) (fuel : Nat) :
    node.unwrapped fuel = node := by
  cases fuel with
  | zero => rfl
  | succ fuel =>
      rw [unwrapped, if_neg]
      intro isWrapped
      rw [isWrapped] at isComment
      cases isComment

theorem unwrapped_withoutComments {fuel : Nat}
    (seen : (node.unwrapped fuel).kind.isComment = false) :
    node.withoutComments.unwrapped fuel = (node.unwrapped fuel).withoutComments := by
  induction fuel generalizing node with
  | zero => rfl
  | succ fuel ih =>
      rw [unwrapped] at seen ⊢
      rw [unwrapped, kind_withoutComments, namedChildren_withoutComments]
      split
      · rename_i isWrapped
        rw [if_pos isWrapped] at seen
        cases parts : node.namedChildren with
        | nil => rfl
        | cons inner others =>
            rw [parts, List.head?_cons, Option.map_some, Option.getD_some] at seen
            have notComment : inner.kind.isComment = false := by
              cases isComment : inner.kind.isComment with
              | false => rfl
              | true =>
                  rw [unwrapped_of_isComment isComment, isComment] at seen
                  cases seen
            simp [notComment, ih seen]
      · rfl

theorem bare_withoutComments (seen : node.bare.kind.isComment = false) :
    node.withoutComments.bare = node.bare.withoutComments := by
  have smaller := size_withoutComments_le node
  have positive := node.size_pos
  rw [bare, bare, ← unwrapped_withoutComments seen]
  exact unwrapped_eq (by omega) (by omega)

end Node

end Syntax

/-! ## Values of attributes -/

variable (document : Document) {node : Node}

@[simp] theorem chars_withoutComments :
    document.chars node.withoutComments = document.chars node := by
  simp [Document.chars]

theorem text_withoutComments : document.text node.withoutComments = document.text node := by
  rw [Document.text, chars_withoutComments, Document.text]

theorem position_withoutComments :
    document.position node.withoutComments = document.position node := by
  rw [Document.position, Node.start_withoutComments, Document.position]

theorem inferExpression_of_isComment (isComment : node.bare.kind.isComment = true) :
    inferExpression document node.size node = (.any, none) := by
  rw [inferExpression_bare, inferExpression]
  revert isComment
  cases node.bare.kind <;> simp [Kind.isComment]

theorem inferExpression_one_withoutComments :
    inferExpression document 1 node.withoutComments = inferExpression document 1 node := by
  simp only [inferExpression, Node.kind_withoutComments, Document.stringValue, Document.text,
    chars_withoutComments]
  split <;> try rfl
  rw [Node.namedChildren_withoutComments]
  cases ((node.namedChildren.filter fun child => !child.kind.isComment).map
    Node.withoutComments).head? <;> cases node.namedChildren.head? <;> rfl

theorem inferExpression_withoutComments (seen : node.bare.kind.isComment = false) :
    inferExpression document node.withoutComments.size node.withoutComments =
      inferExpression document node.size node := by
  rw [inferExpression_bare, inferExpression_bare, Node.bare_withoutComments seen,
    inferExpression_one_withoutComments]

def Syntax.Node.isObscured (value : Node) : Bool :=
  value.kind.isComment || value.kind = .jsxExpression &&
    value.namedChildren.head?.any fun inner => inner.bare.kind.isComment

theorem inferAttribute_of_isObscured (obscured : node.isObscured = true) :
    inferAttribute document (some node) = (.any, none) := by
  rw [Node.isObscured, Bool.or_eq_true, Bool.and_eq_true, decide_eq_true_eq] at obscured
  rw [inferAttribute]
  rcases obscured with isComment | ⟨isBraced, isComment⟩
  · revert isComment
    cases node.kind <;> simp [Kind.isComment]
  · obtain ⟨inner, first, isComment⟩ := Option.any_eq_true _ _ |>.mp isComment
    rw [isBraced, first]
    exact inferExpression_of_isComment document isComment

theorem inferAttribute_withoutComments (clear : node.isObscured = false) :
    inferAttribute document (some node.withoutComments) = inferAttribute document (some node) := by
  rw [Node.isObscured, Bool.or_eq_false_iff, Bool.and_eq_false_iff] at clear
  rw [inferAttribute, inferAttribute, Node.kind_withoutComments]
  cases kind : node.kind <;> try rfl
  · simp [Document.stringValue]
  · dsimp only
    rw [Node.namedChildren_withoutComments]
    cases parts : node.namedChildren with
    | nil => rfl
    | cons inner others =>
        have seen : inner.bare.kind.isComment = false := by simpa [kind, parts] using clear.2
        have notComment : inner.kind.isComment = false := by
          by_contra isComment
          rw [Bool.not_eq_false] at isComment
          rw [Node.bare, Node.unwrapped_of_isComment isComment, isComment] at seen
          cases seen
        simp [notComment, inferExpression_withoutComments document seen]

/-! ## Props -/

def placedWith (component : String) (attr name : Node) (given : PropKind × Option Json) :
    PlacedProp :=
  let isRequired :=
    if Library.isRequiredProp component (document.text name) then some true else none
  let (line, column) := document.position attr
  ⟨⟨document.text name, given.1, given.2, isRequired⟩, line, column⟩

theorem placedProp?_eq {attr name : Node} {values : List Node} (component : String)
    (isAttribute : attr.kind = .jsxAttribute) (parts : attr.namedChildren = name :: values) :
    placedProp? document component attr =
      some (placedWith document component attr name (inferAttribute document values.head?)) := by
  rw [placedProp?, if_neg (by simp [isAttribute]), parts]
  rfl

theorem placedWith_withoutComments (component : String) (attr name : Node) :
    placedWith document component attr.withoutComments name.withoutComments =
      placedWith document component attr name := by
  funext given
  rw [placedWith, text_withoutComments, position_withoutComments, placedWith]

def PlacedProp.obscured (placed : PlacedProp) : PlacedProp :=
  { placed with prop := { placed.prop with kind := .any, value := none } }

def Syntax.Node.BeginsWithName (attr : Node) : Prop :=
  attr.kind = .jsxAttribute → ∀ name ∈ attr.namedChildren.head?, name.kind.isComment = false

/-- A comment takes a value away where it stands first, and changes nothing elsewhere. -/
theorem placedProp?_comments {attr : Node} (component : String) (named : attr.BeginsWithName) :
    placedProp? document component attr =
      (placedProp? document component attr.withoutComments).map fun placed =>
        if attr.namedChildren[1]?.any Node.isObscured then placed.obscured else placed := by
  by_cases isAttribute : attr.kind = .jsxAttribute
  · have kept := attr.namedChildren_withoutComments
    cases parts : attr.namedChildren with
    | nil => simp [placedProp?, parts, kept]
    | cons name values =>
        have notComment : name.kind.isComment = false := named isAttribute name (by simp [parts])
        rw [parts, List.filter_cons_of_pos (by simp [notComment]), List.map_cons] at kept
        rw [placedProp?_eq document component isAttribute parts,
          placedProp?_eq document component (attr.kind_withoutComments.trans isAttribute) kept,
          placedWith_withoutComments, Option.map_some]
        cases values with
        | nil => rfl
        | cons value others =>
            cases obscured : value.isObscured with
            | true =>
                simp only [List.head?_cons, inferAttribute_of_isObscured document obscured]
                simp [obscured, PlacedProp.obscured, placedWith]
            | false =>
                have seen : value.kind.isComment = false :=
                  (Bool.or_eq_false_iff.mp obscured).1
                simp [obscured, seen, inferAttribute_withoutComments document obscured]
  · rw [placedProp?, placedProp?, if_pos isAttribute, if_pos (by simpa using isAttribute)]
    rfl

theorem PlacedProp.obscured_eq_self_iff {placed : PlacedProp} :
    placed.obscured = placed ↔ placed.prop.kind = .any ∧ placed.prop.value = none := by
  obtain ⟨⟨name, kind, value, isRequired⟩, line, column⟩ := placed
  simp [obscured, eq_comm]

theorem placedProps_withoutComments (component : String) (element : Node) :
    placedProps document component element.withoutComments =
      element.namedChildren.filterMap fun attr =>
        placedProp? document component attr.withoutComments := by
  rw [placedProps, Node.namedChildren_withoutComments, List.filterMap_map]
  induction element.namedChildren with
  | nil => rfl
  | cons attr rest ih =>
      cases isComment : attr.kind.isComment with
      | false =>
          rw [List.filter_cons_of_pos (by simp [isComment]), List.filterMap_cons, ih,
            List.filterMap_cons]
          rfl
      | true =>
          have nothing : placedProp? document component attr.withoutComments = none := by
            rw [placedProp?, Node.kind_withoutComments, if_pos]
            intro isAttribute
            rw [isAttribute] at isComment
            cases isComment
          rw [List.filter_cons_of_neg (by simp [isComment]), ih]
          simp [nothing]

theorem placedProps_withoutComments_iff {element : Node} (component : String)
    (named : ∀ attr ∈ element.namedChildren, attr.BeginsWithName) :
    placedProps document component element.withoutComments =
        placedProps document component element ↔
      ∀ attr ∈ element.namedChildren, attr.namedChildren[1]?.any Node.isObscured = true →
        ∀ placed ∈ placedProp? document component attr.withoutComments,
          placed.prop.kind = .any ∧ placed.prop.value = none := by
  rw [placedProps_withoutComments, placedProps]
  generalize element.namedChildren = attrs at named ⊢
  induction attrs with
  | nil => simp
  | cons attr rest ih =>
      obtain ⟨here, others⟩ := List.forall_mem_cons.mp named
      rw [List.forall_mem_cons, ← ih others, List.filterMap_cons, List.filterMap_cons,
        placedProp?_comments document component here]
      cases placedProp? document component attr.withoutComments with
      | none => simp
      | some placed =>
          cases attr.namedChildren[1]?.any Node.isObscured with
          | false => simp
          | true =>
              have same : placed = placed.obscured ↔ _ :=
                eq_comm.trans PlacedProp.obscured_eq_self_iff
              simp [same]

/-- Comments put into a tag, wherever they go, change its props just when they take a value away. -/
theorem placedProps_withComments_iff {element : Node} {comments : List Node}
    (each : ∀ comment ∈ comments, comment.kind.isComment = true) (component : String)
    (named : ∀ attr ∈ (element.withComments comments).namedChildren, attr.BeginsWithName) :
    placedProps document component element.withoutComments =
        placedProps document component (element.withComments comments) ↔
      ∀ attr ∈ (element.withComments comments).namedChildren,
        attr.namedChildren[1]?.any Node.isObscured = true →
          ∀ placed ∈ placedProp? document component attr.withoutComments,
            placed.prop.kind = .any ∧ placed.prop.value = none := by
  rw [← placedProps_withoutComments_iff document component named,
    Node.withoutComments_withComments each]

def shownLabels (before between : String) : List Char :=
  ("const x = <ArchbaseEdit label=\x7b" ++ before ++ "\"Name\"\x7d hint " ++ between ++
    "= \x7b\"Name\"\x7d title=\x7b\"Name\" " ++ before ++ "\x7d />;\n").toList

def propsOf (source : List Char) : Option (List (String × PropKind × Option Json)) :=
  (Document.ofComponentFile? "src/App.tsx" source).map fun document =>
    (extractUsages Predicate.standard document).flatMap fun usage =>
      usage.props.map fun prop => (prop.name, prop.kind, prop.value)

-- of three comments the one behind the expression changes nothing
theorem shownLabels_obscured :
    propsOf (shownLabels "" "") =
        some [("label", .string, some (.string "Name")), ("hint", .string, some (.string "Name")),
          ("title", .string, some (.string "Name"))] ∧
      propsOf (shownLabels "/* shown */ " "/* shown */ ") =
        some [("label", .any, none), ("hint", .any, none),
          ("title", .string, some (.string "Name"))] := by
  decide +kernel

end ComponentSurvey
