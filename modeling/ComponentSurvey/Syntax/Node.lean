import ComponentSurvey.Syntax.Kind

/-!
# Syntax trees

A node covers the bytes from `start` up to `stop` of the text it was read from.  Children lie in
order inside their parent.  `preorder` lists a tree, each node before its descendants; `sites`
lists it together with the ancestors of every node.
-/

namespace ComponentSurvey.Syntax

inductive Node
  | mk (kind : Kind) (role : Option Role) (start stop : Nat) (children : List Node)
deriving Repr, Inhabited

namespace Node

def kind : Node → Kind
  | mk kind _ _ _ _ => kind

def role : Node → Option Role
  | mk _ role _ _ _ => role

def start : Node → Nat
  | mk _ _ start _ _ => start

def stop : Node → Nat
  | mk _ _ _ stop _ => stop

def children : Node → List Node
  | mk _ _ _ _ children => children

def withRole (node : Node) (role : Role) : Node :=
  mk node.kind (some role) node.start node.stop node.children

def withKind (node : Node) (kind : Kind) : Node :=
  mk kind node.role node.start node.stop node.children

def child? (node : Node) (role : Role) : Option Node :=
  node.children.find? fun child => child.role = some role

def namedChildren (node : Node) : List Node :=
  node.children.filter fun child => child.kind.isNamed

mutual
def preorder : Node → List Node
  | mk kind role start stop children =>
    mk kind role start stop children :: preorderList children

def preorderList : List Node → List Node
  | [] => []
  | node :: rest => node.preorder ++ preorderList rest
end

mutual
def size : Node → Nat
  | mk _ _ _ _ children => sizeList children + 1

def sizeList : List Node → Nat
  | [] => 0
  | node :: rest => node.size + sizeList rest
end

mutual
/-- Whether the children of every node lie in order inside it. -/
def isOrdered : Node → Bool
  | mk _ _ start stop children => isOrderedList start stop children

def isOrderedList (start stop : Nat) : List Node → Bool
  | [] => start ≤ stop
  | node :: rest => start ≤ node.start && node.isOrdered && isOrderedList node.stop stop rest
end

def descendantsOfKind (node : Node) (kind : Kind) : List Node :=
  node.preorder.filter fun descendant => descendant.kind = kind

end Node

/-- A node with its ancestors, the nearest first. -/
structure Site where
  node : Node
  ancestors : List Node
deriving Repr, Inhabited

namespace Site

def parent? (site : Site) : Option Node := site.ancestors.head?

/-- The nearest enclosing function. -/
def function? (site : Site) : Option Node :=
  site.ancestors.find? fun node => node.kind.isFunction

def outermostFunction? (site : Site) : Option Node :=
  site.ancestors.reverse.find? fun node => node.kind.isFunction

end Site

mutual
def Node.sites (ancestors : List Node) : Node → List Site
  | .mk kind role start stop children =>
    let node := Node.mk kind role start stop children
    ⟨node, ancestors⟩ :: Node.sitesList (node :: ancestors) children

def Node.sitesList (ancestors : List Node) : List Node → List Site
  | [] => []
  | node :: rest => node.sites ancestors ++ Node.sitesList ancestors rest
end

end ComponentSurvey.Syntax
