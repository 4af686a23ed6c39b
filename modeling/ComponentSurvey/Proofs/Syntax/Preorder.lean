import ComponentSurvey.Syntax.Walk
import Mathlib.Logic.Relation

/-!
# The walk is the preorder

All that a walk remembers is where it stands and whether it climbs.  Two things hold it on its way:
what it has arrived at and what is still to come make up the tree in preorder after every turn, and
every turn uses up one of the two turns that each node is worth.  So the walk ends, and it has
arrived at every place of the tree once.

Equal nodes can stand in different places of one tree; what is listed once is the place.
-/

namespace ComponentSurvey.Syntax

/-! ## The places of a tree -/

mutual
/-- A node and the places below it in preorder, where the trail leads to the node. -/
def Node.places (trail : List (Node × List Node)) : Node → List Walker
  | .mk kind role start stop children =>
    let node := Node.mk kind role start stop children
    ⟨node, trail⟩ :: Node.placesBelow node trail children

def Node.placesBelow (parent : Node) (trail : List (Node × List Node)) :
    List Node → List Walker
  | [] => []
  | child :: later =>
    child.places ((parent, later) :: trail) ++ Node.placesBelow parent trail later
end

theorem Node.size_eq (node : Node) : node.size = Node.sizeList node.children + 1 := by
  cases node
  rfl

theorem Node.preorder_eq (node : Node) :
    node.preorder = node :: node.children.flatMap Node.preorder := by
  have flat (nodes : List Node) : Node.preorderList nodes = nodes.flatMap Node.preorder := by
    induction nodes with
    | nil => rfl
    | cons first rest ih => rw [Node.preorderList, ih, List.flatMap_cons]
  cases node with
  | mk kind role start stop children => rw [Node.preorder, flat, Node.children]

theorem Node.placesBelow_suffix (parent : Node) (trail : List (Node × List Node))
    {later children : List Node} (behind : later <:+ children) :
    Node.placesBelow parent trail later <:+ Node.placesBelow parent trail children := by
  obtain ⟨before, rfl⟩ := behind
  induction before with
  | nil => exact List.suffix_rfl
  | cons child rest ih => exact ih.trans (List.suffix_append _ _)

namespace Walker

def places (walker : Walker) : List Walker := walker.focus.places walker.trail

theorem places_eq (walker : Walker) :
    walker.places =
      walker :: Node.placesBelow walker.focus walker.trail walker.focus.children := by
  obtain ⟨⟨kind, role, start, stop, children⟩, trail⟩ := walker
  rfl

/-- Whether one place lies directly below another.  The siblings that follow tell apart children
that are equal. -/
def IsChildOf (lower upper : Walker) : Prop :=
  ∃ before later, upper.focus.children = before ++ lower.focus :: later ∧
    lower.trail = (upper.focus, later) :: upper.trail

theorem IsChildOf.infix_placesBelow {lower upper : Walker} (below : lower.IsChildOf upper) :
    lower.places <:+: Node.placesBelow upper.focus upper.trail upper.focus.children := by
  obtain ⟨before, later, children, trail⟩ := below
  have first : lower.places <+:
      Node.placesBelow upper.focus upper.trail (lower.focus :: later) := by
    rw [places, trail]
    exact List.prefix_append _ _
  have behind : lower.focus :: later <:+ upper.focus.children :=
    children ▸ List.suffix_append _ _
  exact first.isInfix.trans (Node.placesBelow_suffix _ _ behind).isInfix

theorem infix_places {lower upper : Walker}
    (within : Relation.ReflTransGen IsChildOf lower upper) : lower.places <:+: upper.places := by
  induction within with
  | refl => exact List.infix_rfl
  | tail _ below ih =>
      refine ih.trans (below.infix_placesBelow.trans ?_)
      rw [places_eq]
      exact (List.suffix_cons _ _).isInfix

mutual
theorem within_of_mem_places {node : Node} {trail : List (Node × List Node)} {place : Walker}
    (member : place ∈ node.places trail) :
    Relation.ReflTransGen IsChildOf place ⟨node, trail⟩ := by
  cases node with
  | mk kind role start stop children =>
      rcases List.mem_cons.mp member with rfl | below
      · exact .refl
      · exact within_of_mem_placesBelow List.suffix_rfl below

theorem within_of_mem_placesBelow {parent : Node} {trail : List (Node × List Node)}
    {children : List Node} {place : Walker} (behind : children <:+ parent.children)
    (member : place ∈ Node.placesBelow parent trail children) :
    Relation.ReflTransGen IsChildOf place ⟨parent, trail⟩ := by
  cases children with
  | nil => cases member
  | cons child later =>
      rcases List.mem_append.mp member with inChild | inLater
      · obtain ⟨before, split⟩ := behind
        exact (within_of_mem_places inChild).tail ⟨before, later, split.symm, rfl⟩
      · exact within_of_mem_placesBelow ((List.suffix_cons child later).trans behind) inLater
end

theorem mem_places_iff {place start : Walker} :
    place ∈ start.places ↔ Relation.ReflTransGen IsChildOf place start := by
  refine ⟨within_of_mem_places, fun within => (infix_places within).subset ?_⟩
  rw [places_eq]
  exact List.mem_cons_self

theorem pair_sublist_places {lower upper start : Walker} (listed : upper ∈ start.places)
    (below : Relation.TransGen IsChildOf lower upper) : [upper, lower].Sublist start.places := by
  obtain ⟨middle, within, child⟩ := Relation.TransGen.tail'_iff.mp below
  have inside : lower ∈ Node.placesBelow upper.focus upper.trail upper.focus.children :=
    child.infix_placesBelow.subset (mem_places_iff.mpr within)
  have pair : [upper, lower].Sublist upper.places := by
    rw [places_eq]
    exact (List.singleton_sublist.mpr inside).cons_cons upper
  exact pair.trans (infix_places (mem_places_iff.mp listed)).sublist

/-- The same place when the tree hangs on a trail itself. -/
def under (above : List (Node × List Node)) (walker : Walker) : Walker :=
  ⟨walker.focus, walker.trail ++ above⟩

mutual
theorem map_under_places (node : Node) (trail above : List (Node × List Node)) :
    (node.places trail).map (under above) = node.places (trail ++ above) := by
  cases node with
  | mk kind role start stop children =>
      exact congrArg _ (map_under_placesBelow _ trail above children)

theorem map_under_placesBelow (parent : Node) (trail above : List (Node × List Node))
    (children : List Node) :
    (Node.placesBelow parent trail children).map (under above) =
      Node.placesBelow parent (trail ++ above) children := by
  cases children with
  | nil => rfl
  | cons child later =>
      rw [Node.placesBelow, List.map_append, map_under_places child,
        map_under_placesBelow parent, Node.placesBelow, List.cons_append]
end

end Walker

/-! ## Turns -/

/-- The state of a walk.  A climbing walk has seen everything below its place. -/
structure Walk where
  climbing : Bool
  walker : Walker

namespace Walk

def turn? (walk : Walk) : Option Walk :=
  match walk with
  | ⟨true, walker⟩ =>
    match walker.nextSibling? with
    | some next => some ⟨false, next⟩
    | none => walker.parent?.map (mk true)
  | ⟨false, walker⟩ =>
    match walker.firstChild? with
    | some child => some ⟨false, child⟩
    | none => some ⟨true, walker⟩

def arrivals (walk : Walk) : List Walker := if walk.climbing then [] else [walk.walker]

/-- A walk that comes to its end: the turns it takes and the places it arrives at. -/
inductive Ends : Walk → Nat → List Walker → Prop
  | last {walk : Walk} (stays : walk.turn? = none) : Ends walk 1 walk.arrivals
  | turn {walk next : Walk} {turns : Nat} {visited : List Walker}
      (moves : walk.turn? = some next) (ends : Ends next turns visited) :
      Ends walk (turns + 1) (walk.arrivals ++ visited)

def rightOf : List (Node × List Node) → List Walker
  | [] => []
  | (parent, later) :: above => Node.placesBelow parent above later ++ rightOf above

/-- One turn for every step of the trail and two for every node to the right of it. -/
def climbTurns : List (Node × List Node) → Nat
  | [] => 0
  | (_, later) :: above => 2 * Node.sizeList later + 1 + climbTurns above

/-- The places still to be arrived at. -/
def ahead : Walk → List Walker
  | ⟨true, walker⟩ => rightOf walker.trail
  | ⟨false, walker⟩ => walker.places ++ rightOf walker.trail

def turnsLeft : Walk → Nat
  | ⟨true, walker⟩ => climbTurns walker.trail + 1
  | ⟨false, walker⟩ => 2 * walker.focus.size + climbTurns walker.trail

theorem turnsLeft_pos (walk : Walk) : 0 < walk.turnsLeft := by
  obtain ⟨climbing, walker⟩ := walk
  have size := walker.focus.size_eq
  cases climbing <;> simp only [turnsLeft] <;> omega

inductive Turn : Walk → Walk → Prop
  | down {node child : Node} {later : List Node} {trail : List (Node × List Node)}
      (children : node.children = child :: later) :
      Turn ⟨false, ⟨node, trail⟩⟩ ⟨false, ⟨child, (node, later) :: trail⟩⟩
  | back {node : Node} {trail : List (Node × List Node)} (childless : node.children = []) :
      Turn ⟨false, ⟨node, trail⟩⟩ ⟨true, ⟨node, trail⟩⟩
  | across {node parent sibling : Node} {later : List Node} {above : List (Node × List Node)} :
      Turn ⟨true, ⟨node, (parent, sibling :: later) :: above⟩⟩
        ⟨false, ⟨sibling, (parent, later) :: above⟩⟩
  | up {node parent : Node} {above : List (Node × List Node)} :
      Turn ⟨true, ⟨node, (parent, []) :: above⟩⟩ ⟨true, ⟨parent, above⟩⟩

theorem turn_of_turn? {walk next : Walk} (moves : walk.turn? = some next) : Turn walk next := by
  obtain ⟨climbing, node, trail⟩ := walk
  cases climbing with
  | true =>
      rcases trail with - | ⟨⟨parent, - | ⟨sibling, later⟩⟩, above⟩
      · cases moves
      · obtain rfl := Option.some.inj moves
        exact .up
      · obtain rfl := Option.some.inj moves
        exact .across
  | false =>
      cases children : node.children with
      | nil =>
          simp only [turn?, Walker.firstChild?, children, Option.some.injEq] at moves
          exact moves ▸ .back children
      | cons child later =>
          simp only [turn?, Walker.firstChild?, children, Option.some.injEq] at moves
          exact moves ▸ .down children

theorem atTop_of_turn?_eq_none {walk : Walk} (stays : walk.turn? = none) :
    walk.climbing = true ∧ walk.walker.trail = [] := by
  obtain ⟨climbing, node, trail⟩ := walk
  cases climbing with
  | true =>
      rcases trail with - | ⟨⟨parent, - | ⟨sibling, later⟩⟩, above⟩
      · exact ⟨rfl, rfl⟩
      · cases stays
      · cases stays
  | false =>
      rw [turn?] at stays
      split at stays <;> cases stays

theorem Turn.ahead_eq {walk next : Walk} (turn : Turn walk next) :
    walk.ahead = walk.arrivals ++ next.ahead := by
  cases turn with
  | @down node child later trail children =>
      have split := Walker.places_eq ⟨node, trail⟩
      rw [children] at split
      simp only [ahead, split]
      simp [arrivals, rightOf, Node.placesBelow, Walker.places]
  | @back node trail childless =>
      have single := Walker.places_eq ⟨node, trail⟩
      rw [childless] at single
      simp [ahead, single, arrivals, Node.placesBelow]
  | across => simp [ahead, arrivals, rightOf, Node.placesBelow, Walker.places]
  | up => simp [ahead, arrivals, rightOf, Node.placesBelow]

theorem Turn.turnsLeft_eq {walk next : Walk} (turn : Turn walk next) :
    walk.turnsLeft = next.turnsLeft + 1 := by
  cases turn with
  | @down node child later trail children =>
      have size := node.size_eq
      rw [children] at size
      simp only [turnsLeft, climbTurns, Node.sizeList] at size ⊢
      omega
  | @back node trail childless =>
      have size := node.size_eq
      rw [childless] at size
      simp only [turnsLeft, Node.sizeList] at size ⊢
      omega
  | across =>
      simp only [turnsLeft, climbTurns, Node.sizeList]
      omega
  | up =>
      simp only [turnsLeft, climbTurns, Node.sizeList]
      omega

/-! ## Runs -/

theorem ends (walk : Walk) : walk.Ends walk.turnsLeft walk.ahead := by
  -- a walk goes up and down, but never without a turn less to go
  generalize left : walk.turnsLeft = turns
  induction turns generalizing walk with
  | zero => exact absurd left (Nat.ne_of_gt walk.turnsLeft_pos)
  | succ turns ih =>
      cases moved : walk.turn? with
      | none =>
          obtain ⟨climbing, node, trail⟩ := walk
          obtain ⟨rfl, rfl⟩ := atTop_of_turn?_eq_none moved
          obtain rfl : 0 = turns := Nat.succ.inj left
          exact .last moved
      | some next =>
          have turn := turn_of_turn? moved
          rw [turn.turnsLeft_eq] at left
          rw [turn.ahead_eq]
          exact .turn moved (ih next (Nat.succ.inj left))

theorem Ends.unique {walk : Walk} {turns others : Nat} {visited reached : List Walker}
    (first : walk.Ends turns visited) (second : walk.Ends others reached) :
    turns = others ∧ visited = reached := by
  induction first generalizing others reached with
  | last stays =>
      cases second with
      | last => exact ⟨rfl, rfl⟩
      | turn moves => rw [stays] at moves; cases moves
  | turn moves _ ih =>
      cases second with
      | last stays => rw [stays] at moves; cases moves
      | turn moved ended =>
          obtain rfl := Option.some.inj (moves.symm.trans moved)
          obtain ⟨rfl, rfl⟩ := ih ended
          exact ⟨rfl, rfl⟩

theorem visit_succ (walk : Walk) (fuel : Nat) :
    Walker.visit (fuel + 1) walk.climbing walk.walker =
      walk.arrivals ++
        walk.turn?.elim [] fun next => Walker.visit fuel next.climbing next.walker := by
  obtain ⟨climbing, walker⟩ := walk
  cases climbing with
  | true =>
      simp only [Walker.visit, turn?, arrivals]
      cases walker.nextSibling? with
      | some next => rfl
      | none => cases walker.parent? <;> rfl
  | false =>
      simp only [Walker.visit, turn?, arrivals]
      cases walker.firstChild? <;> rfl

/-- Fuel for all turns of a walk is fuel enough. -/
theorem Ends.visit_eq {walk : Walk} {turns : Nat} {visited : List Walker}
    (ended : walk.Ends turns visited) (extra : Nat) :
    Walker.visit (turns + extra) walk.climbing walk.walker = visited := by
  induction ended with
  | last stays => rw [Nat.add_comm, visit_succ, stays, Option.elim_none, List.append_nil]
  | turn moves _ ih => rw [Nat.add_right_comm, visit_succ, moves, Option.elim_some, ih]

/-- Every place leaves the walk fewer turns than the places before it. -/
theorem Ends.pairwise {walk : Walk} {turns : Nat} {visited : List Walker}
    (ended : walk.Ends turns visited) :
    (∀ place ∈ visited, turnsLeft ⟨false, place⟩ ≤ turns) ∧
      visited.Pairwise fun first second =>
        turnsLeft ⟨false, second⟩ < turnsLeft ⟨false, first⟩ := by
  induction ended with
  | @last walk stays =>
      obtain ⟨climbing, walker⟩ := walk
      obtain ⟨rfl, -⟩ := atTop_of_turn?_eq_none stays
      exact ⟨fun place member => absurd member List.not_mem_nil, .nil⟩
  | @turn walk next turns visited moves ended ih =>
      obtain ⟨within, descending⟩ := ih
      have left : walk.turnsLeft = turns + 1 := by
        rw [(turn_of_turn? moves).turnsLeft_eq, (ended.unique next.ends).1]
      obtain ⟨climbing, walker⟩ := walk
      cases climbing with
      | true =>
          -- nothing is listed while the walk climbs
          exact ⟨fun place member => (within place member).step, descending⟩
      | false =>
          refine ⟨?_, .cons (fun place member => ?_) descending⟩
          · rintro place (_ | ⟨_, member⟩)
            · exact Nat.le_of_eq left
            · exact (within place member).step
          · exact left ▸ Nat.lt_succ_of_le (within place member)

theorem nodup_ahead (walk : Walk) : walk.ahead.Nodup :=
  walk.ends.pairwise.2.imp fun {first second} fewer same => by
    rw [same] at fewer
    exact Nat.lt_irrefl _ fewer

end Walk

/-! ## Places, sites and nodes -/

mutual
theorem map_node_sites (node : Node) (ancestors : List Node) :
    (node.sites ancestors).map Site.node = node.preorder := by
  cases node with
  | mk kind role start stop children =>
      exact congrArg _ (map_node_sitesList children _)

theorem map_node_sitesList (nodes ancestors : List Node) :
    (Node.sitesList ancestors nodes).map Site.node = Node.preorderList nodes := by
  cases nodes with
  | nil => rfl
  | cons first rest =>
      rw [Node.sitesList, List.map_append, map_node_sites first, map_node_sitesList rest,
        Node.preorderList]
end

namespace Walker

mutual
theorem map_site_places (node : Node) (trail : List (Node × List Node)) :
    (node.places trail).map site = node.sites (trail.map Prod.fst) := by
  cases node with
  | mk kind role start stop children =>
      exact congrArg _ (map_site_placesBelow _ trail children)

theorem map_site_placesBelow (parent : Node) (trail : List (Node × List Node))
    (children : List Node) :
    (Node.placesBelow parent trail children).map site =
      Node.sitesList (parent :: trail.map Prod.fst) children := by
  cases children with
  | nil => rfl
  | cons child later =>
      rw [Node.placesBelow, List.map_append, map_site_places child,
        map_site_placesBelow parent, Node.sitesList, List.map_cons]
end

/-! ## The walk over a whole tree -/

/-- The walk over a tree ends, and its fuel does not cut it short. -/
theorem ends_iff {root : Node} {turns : Nat} {visited : List Walker} :
    Walk.Ends ⟨false, atRoot root⟩ turns visited ↔
      turns = 2 * root.size ∧ visited = visitAll root := by
  have ended := Walk.ends ⟨false, atRoot root⟩
  have listed : Walk.ahead ⟨false, atRoot root⟩ = visitAll root := (ended.visit_eq 1).symm
  rw [listed] at ended
  refine ⟨fun other => other.unique ended, ?_⟩
  rintro ⟨rfl, rfl⟩
  exact ended

theorem visitAll_eq_places (root : Node) : visitAll root = root.places [] := by
  rw [← (ends_iff.mp (Walk.ends ⟨false, atRoot root⟩)).2]
  exact List.append_nil _

theorem visitAll_sites (root : Node) : (visitAll root).map site = root.sites [] := by
  rw [visitAll_eq_places, map_site_places, List.map_nil]

theorem map_focus_visitAll (root : Node) : (visitAll root).map focus = root.preorder := by
  rw [← map_node_sites root [], ← visitAll_sites, List.map_map]
  rfl

/-- A walk sees nothing above the node it begins on, which may stand anywhere in a tree. -/
theorem map_under_visitAll (start : Walker) :
    (visitAll start.focus).map (under start.trail) = start.places := by
  rw [visitAll_eq_places, map_under_places, List.nil_append, places]

/-- The places of a subtree and no others, each once and before those below it. -/
structure ListsTree (start : Walker) (listed : List Walker) : Prop where
  nodup : listed.Nodup
  mem_iff : ∀ place, place ∈ listed ↔ Relation.ReflTransGen IsChildOf place start
  before : ∀ upper ∈ listed, ∀ lower, Relation.TransGen IsChildOf lower upper →
    [upper, lower].Sublist listed

theorem listsTree_places (start : Walker) : start.ListsTree start.places where
  nodup := (Walk.nodup_ahead ⟨false, start⟩).sublist (List.sublist_append_left _ _)
  mem_iff _ := mem_places_iff
  before _ listed _ below := pair_sublist_places listed below

/-- A walk that begins on a node of a tree ends after two turns for every node of the subtree.  It
lists the node and then the preorders of its children, and in the tree these are the places of the
subtree, each once. -/
theorem visitAll_preorder (start : Walker) :
    (∀ turns visited, Walk.Ends ⟨false, atRoot start.focus⟩ turns visited ↔
      turns = 2 * start.focus.size ∧ visited = visitAll start.focus) ∧
    (visitAll start.focus).map focus = start.focus.preorder ∧
    start.focus.preorder = start.focus :: start.focus.children.flatMap Node.preorder ∧
    start.ListsTree ((visitAll start.focus).map (under start.trail)) := by
  refine ⟨fun turns visited => ends_iff, map_focus_visitAll _, start.focus.preorder_eq, ?_⟩
  rw [map_under_visitAll]
  exact start.listsTree_places

/-- Equal statements side by side are two places: one statement follows the first, none the
second. -/
example :
    (visitAll (.mk .program none 0 2
      [.mk .emptyStatement none 0 1 [], .mk .emptyStatement none 0 1 []])).map
        (fun place => place.trail.map fun step => step.2.length) = [[], [1], [0]] := by
  decide

end Walker

end ComponentSurvey.Syntax
