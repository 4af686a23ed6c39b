import ComponentSurvey.Syntax.Node

/-!
# Walking a syntax tree

A `Walker` stands on a node and can move to its first child, its next sibling or its parent.
`visit` moves it until it is back above the node it started on and lists the places where it
arrived from above or from the left.
-/

namespace ComponentSurvey.Syntax

/-- A place in a tree.  Each step of the trail keeps the parent and the siblings still to come. -/
structure Walker where
  focus : Node
  trail : List (Node × List Node)
deriving Repr, Inhabited

namespace Walker

def atRoot (root : Node) : Walker := ⟨root, []⟩

def firstChild? (walker : Walker) : Option Walker :=
  match walker.focus.children with
  | [] => none
  | first :: later => some ⟨first, (walker.focus, later) :: walker.trail⟩

def nextSibling? (walker : Walker) : Option Walker :=
  match walker.trail with
  | (parent, next :: later) :: above => some ⟨next, (parent, later) :: above⟩
  | _ => none

def parent? (walker : Walker) : Option Walker :=
  match walker.trail with
  | [] => none
  | (parent, _) :: above => some ⟨parent, above⟩

def site (walker : Walker) : Site :=
  ⟨walker.focus, walker.trail.map Prod.fst⟩

/-- A climbing walker has seen everything below its focus. -/
def visit : Nat → Bool → Walker → List Walker
  | 0, _, _ => []
  | fuel + 1, true, walker =>
    match walker.nextSibling? with
    | some next => visit fuel false next
    | none =>
      match walker.parent? with
      | some parent => visit fuel true parent
      | none => []
  | fuel + 1, false, walker =>
    walker ::
      match walker.firstChild? with
      | some child => visit fuel false child
      | none => visit fuel true walker

/-- Every node is arrived at once and climbed from once. -/
def visitAll (root : Node) : List Walker :=
  visit (2 * root.size + 1) false (atRoot root)

end Walker

end ComponentSurvey.Syntax
