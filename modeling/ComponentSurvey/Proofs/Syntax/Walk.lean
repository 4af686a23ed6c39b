import ComponentSurvey.Proofs.Syntax.Preorder
import ComponentSurvey.Syntax.Document

/-!
# Sites of an ordered tree

The walk over a document lists the sites of its tree.  In an ordered tree every site lies inside the
root, and a node that covers any text stands in one place only.
-/

namespace ComponentSurvey.Syntax

theorem Document.sites_eq (document : Document) : document.sites = document.root.sites [] :=
  Walker.visitAll_sites document.root

/-! ## Where sites lie -/

namespace Node

mutual
theorem start_le_stop (node : Node) (ordered : node.isOrdered = true) :
    node.start ≤ node.stop := by
  cases node with
  | mk kind role start stop children => exact isOrderedList_le start stop children ordered

theorem isOrderedList_le (start stop : Nat) (nodes : List Node)
    (ordered : isOrderedList start stop nodes = true) : start ≤ stop := by
  cases nodes with
  | nil => simpa [isOrderedList] using ordered
  | cons node rest =>
      simp only [isOrderedList, Bool.and_eq_true, decide_eq_true_eq] at ordered
      obtain ⟨⟨before, inside⟩, behind⟩ := ordered
      have spans := start_le_stop node inside
      have rests := isOrderedList_le node.stop stop rest behind
      omega
end

structure LiesIn (start stop : Nat) (node : Node) : Prop where
  ordered : node.isOrdered = true
  start_le : start ≤ node.start
  le_stop : node.stop ≤ stop

theorem LiesIn.widen {start stop low high : Nat} {node : Node} (lies : node.LiesIn start stop)
    (lower : low ≤ start) (upper : stop ≤ high) : node.LiesIn low high where
  ordered := lies.ordered
  start_le := Nat.le_trans lower lies.start_le
  le_stop := Nat.le_trans lies.le_stop upper

theorem liesIn_of_mem {start stop : Nat} {nodes : List Node}
    (ordered : isOrderedList start stop nodes = true) {node : Node} (member : node ∈ nodes) :
    node.LiesIn start stop := by
  induction nodes generalizing start with
  | nil => cases member
  | cons first rest ih =>
      simp only [isOrderedList, Bool.and_eq_true, decide_eq_true_eq] at ordered
      obtain ⟨⟨before, inside⟩, behind⟩ := ordered
      have spans := start_le_stop first inside
      have rests := isOrderedList_le first.stop stop rest behind
      rcases List.mem_cons.mp member with rfl | later
      · exact ⟨inside, before, rests⟩
      · exact (ih behind later).widen (Nat.le_trans before spans) (Nat.le_refl stop)

theorem mem_children_of_child? {node child : Node} {role : Role}
    (found : node.child? role = some child) : child ∈ node.children :=
  List.mem_of_find?_eq_some found

end Node

mutual
theorem liesIn_site {node : Node} {ancestors : List Node} (ordered : node.isOrdered = true)
    {site : Site} (member : site ∈ node.sites ancestors) :
    site.node.LiesIn node.start node.stop := by
  cases node with
  | mk kind role start stop children =>
      rcases List.mem_cons.mp member with rfl | below
      · exact ⟨ordered, Nat.le_refl start, Nat.le_refl stop⟩
      · exact liesIn_sitesList ordered below

theorem liesIn_sitesList {start stop : Nat} {nodes ancestors : List Node}
    (ordered : Node.isOrderedList start stop nodes = true)
    {site : Site} (member : site ∈ Node.sitesList ancestors nodes) :
    site.node.LiesIn start stop := by
  cases nodes with
  | nil => cases member
  | cons first rest =>
      have here := Node.liesIn_of_mem ordered List.mem_cons_self
      simp only [Node.isOrderedList, Bool.and_eq_true, decide_eq_true_eq] at ordered
      rcases List.mem_append.mp member with inFirst | inRest
      · exact (liesIn_site here.ordered inFirst).widen here.start_le here.le_stop
      · have spans := Node.start_le_stop first here.ordered
        exact (liesIn_sitesList ordered.2 inRest).widen (Nat.le_trans here.start_le spans)
          (Nat.le_refl stop)
end

/-! ## Below and above a site -/

theorem mem_sitesList_of_mem {nodes : List Node} (ancestors : List Node) {node : Node}
    (member : node ∈ nodes) : ⟨node, ancestors⟩ ∈ Node.sitesList ancestors nodes := by
  induction nodes with
  | nil => cases member
  | cons first rest ih =>
      rcases List.mem_cons.mp member with rfl | later
      · exact List.mem_append_left _ (by cases node; exact List.mem_cons_self)
      · exact List.mem_append_right _ (ih later)

mutual
theorem child_mem_sites {node : Node} {ancestors : List Node} {site : Site}
    (member : site ∈ node.sites ancestors) {child : Node} (below : child ∈ site.node.children) :
    ⟨child, site.node :: site.ancestors⟩ ∈ node.sites ancestors := by
  cases node with
  | mk kind role start stop children =>
      rcases List.mem_cons.mp member with rfl | inside
      · exact List.mem_cons_of_mem _ (mem_sitesList_of_mem _ below)
      · exact List.mem_cons_of_mem _ (child_mem_sitesList inside below)

theorem child_mem_sitesList {nodes ancestors : List Node} {site : Site}
    (member : site ∈ Node.sitesList ancestors nodes) {child : Node}
    (below : child ∈ site.node.children) :
    ⟨child, site.node :: site.ancestors⟩ ∈ Node.sitesList ancestors nodes := by
  cases nodes with
  | nil => cases member
  | cons first rest =>
      rcases List.mem_append.mp member with inFirst | inRest
      · exact List.mem_append_left _ (child_mem_sites inFirst below)
      · exact List.mem_append_right _ (child_mem_sitesList inRest below)
end

mutual
theorem ancestor_mem_sites {node : Node} {ancestors : List Node} {site : Site}
    (member : site ∈ node.sites ancestors) {ancestor : Node}
    (above : ancestor ∈ site.ancestors) :
    ancestor ∈ ancestors ∨ ∃ other ∈ node.sites ancestors, other.node = ancestor := by
  cases node with
  | mk kind role start stop children =>
      rcases List.mem_cons.mp member with rfl | inside
      · exact .inl above
      · rcases ancestor_mem_sitesList inside above with given | ⟨other, visited, same⟩
        · rcases List.mem_cons.mp given with rfl | given
          · exact .inr ⟨_, List.mem_cons_self, rfl⟩
          · exact .inl given
        · exact .inr ⟨other, List.mem_cons_of_mem _ visited, same⟩

theorem ancestor_mem_sitesList {nodes ancestors : List Node} {site : Site}
    (member : site ∈ Node.sitesList ancestors nodes) {ancestor : Node}
    (above : ancestor ∈ site.ancestors) :
    ancestor ∈ ancestors ∨ ∃ other ∈ Node.sitesList ancestors nodes, other.node = ancestor := by
  cases nodes with
  | nil => cases member
  | cons first rest =>
      rcases List.mem_append.mp member with inFirst | inRest
      · refine (ancestor_mem_sites inFirst above).imp_right ?_
        rintro ⟨other, visited, same⟩
        exact ⟨other, List.mem_append_left _ visited, same⟩
      · refine (ancestor_mem_sitesList inRest above).imp_right ?_
        rintro ⟨other, visited, same⟩
        exact ⟨other, List.mem_append_right _ visited, same⟩
end

mutual
theorem size_le_of_mem_sites {node : Node} {ancestors : List Node} {site : Site}
    (member : site ∈ node.sites ancestors) : site.node.size ≤ node.size := by
  cases node with
  | mk kind role start stop children =>
      rcases List.mem_cons.mp member with rfl | inside
      · exact Nat.le_refl _
      · exact Nat.le_succ_of_le (size_le_of_mem_sitesList inside)

theorem size_le_of_mem_sitesList {nodes ancestors : List Node} {site : Site}
    (member : site ∈ Node.sitesList ancestors nodes) :
    site.node.size ≤ Node.sizeList nodes := by
  cases nodes with
  | nil => cases member
  | cons first rest =>
      rcases List.mem_append.mp member with inFirst | inRest
      · exact Nat.le_add_right_of_le (size_le_of_mem_sites inFirst)
      · exact Nat.le_add_left_of_le (size_le_of_mem_sitesList inRest)
end

/-! ## The nodes of a tree -/

mutual
theorem preorder_subset {node inner : Node} (member : inner ∈ node.preorder) :
    inner.preorder ⊆ node.preorder := by
  cases node with
  | mk kind role start stop children =>
      rcases List.mem_cons.mp member with rfl | below
      · exact List.Subset.refl _
      · exact List.subset_cons_of_subset _ (preorderList_subset below)

theorem preorderList_subset {nodes : List Node} {inner : Node}
    (member : inner ∈ Node.preorderList nodes) : inner.preorder ⊆ Node.preorderList nodes := by
  cases nodes with
  | nil => cases member
  | cons first rest =>
      rcases List.mem_append.mp member with inFirst | inRest
      · exact List.subset_append_of_subset_left _ (preorder_subset inFirst)
      · exact List.subset_append_of_subset_right _ (preorderList_subset inRest)
end

theorem self_mem_preorder (node : Node) : node ∈ node.preorder := by
  cases node
  exact List.mem_cons_self

theorem mem_preorder_of_mem_children {node child : Node} (below : child ∈ node.children) :
    child ∈ node.preorder := by
  cases node with
  | mk kind role start stop children =>
      rw [Node.preorder, ← map_node_sitesList children []]
      exact List.mem_cons_of_mem _ (List.mem_map_of_mem (mem_sitesList_of_mem [] below))

/-! ## Each site once -/

mutual
/-- A node that covers some text stands at one site of an ordered tree. -/
theorem site_unique {node : Node} {ancestors : List Node} (ordered : node.isOrdered = true)
    {first second : Site} (firstMember : first ∈ node.sites ancestors)
    (secondMember : second ∈ node.sites ancestors) (same : first.node = second.node)
    (covers : first.node.start < first.node.stop) : first = second := by
  cases node with
  | mk kind role start stop children =>
      rcases List.mem_cons.mp firstMember with rfl | firstBelow <;>
        rcases List.mem_cons.mp secondMember with rfl | secondBelow
      · rfl
      · -- a node below the root is smaller than the root
        have smaller := size_le_of_mem_sitesList secondBelow
        rw [← same, Node.size] at smaller
        omega
      · have smaller := size_le_of_mem_sitesList firstBelow
        rw [same, Node.size] at smaller
        omega
      · exact site_unique_list ordered firstBelow secondBelow same covers

theorem site_unique_list {start stop : Nat} {nodes ancestors : List Node}
    (ordered : Node.isOrderedList start stop nodes = true) {first second : Site}
    (firstMember : first ∈ Node.sitesList ancestors nodes)
    (secondMember : second ∈ Node.sitesList ancestors nodes) (same : first.node = second.node)
    (covers : first.node.start < first.node.stop) : first = second := by
  cases nodes with
  | nil => cases firstMember
  | cons head rest =>
      have here := (Node.liesIn_of_mem ordered List.mem_cons_self).ordered
      simp only [Node.isOrderedList, Bool.and_eq_true, decide_eq_true_eq] at ordered
      rcases List.mem_append.mp firstMember with firstHead | firstRest <;>
        rcases List.mem_append.mp secondMember with secondHead | secondRest
      · exact site_unique here firstHead secondHead same covers
      · -- nodes below different siblings lie apart
        have before := (liesIn_site here firstHead).le_stop
        have behind := (liesIn_sitesList ordered.2 secondRest).start_le
        rw [← same] at behind
        omega
      · have before := (liesIn_site here secondHead).le_stop
        have behind := (liesIn_sitesList ordered.2 firstRest).start_le
        rw [← same] at before
        omega
      · exact site_unique_list ordered.2 firstRest secondRest same covers
end

/-! ## The sites of a document -/

namespace Document

variable {document : Document} {site : Site}

theorem liesIn_of_mem_sites (member : site ∈ document.sites) :
    site.node.LiesIn 0 (Text.byteLength document.source) := by
  rw [sites_eq] at member
  exact (liesIn_site document.ordered member).widen (Nat.zero_le _) document.stop_le

theorem nodes_eq (document : Document) : document.nodes = document.root.preorder := by
  rw [nodes, sites_eq, map_node_sites]

theorem mem_nodes_of_mem_nodesOfKind {kind : Kind} {node : Node}
    (listed : node ∈ document.nodesOfKind kind) : node ∈ document.nodes := by
  obtain ⟨site, ofKind, rfl⟩ := List.mem_map.mp listed
  exact List.mem_map_of_mem (List.mem_filter.mp ofKind).1

theorem ancestor_mem_nodes (member : site ∈ document.sites) {ancestor : Node}
    (above : ancestor ∈ site.ancestors) : ancestor ∈ document.nodes := by
  rw [nodes, sites_eq] at *
  rcases ancestor_mem_sites member above with none | ⟨other, visited, rfl⟩
  · cases none
  · exact List.mem_map_of_mem visited

theorem liesIn_of_mem_ancestors (member : site ∈ document.sites) {ancestor : Node}
    (above : ancestor ∈ site.ancestors) :
    ancestor.LiesIn 0 (Text.byteLength document.source) := by
  obtain ⟨other, visited, rfl⟩ := List.mem_map.mp (ancestor_mem_nodes member above)
  exact liesIn_of_mem_sites visited

theorem mem_nodes_of_mem_preorder {node inner : Node} (visited : node ∈ document.nodes)
    (inside : inner ∈ node.preorder) : inner ∈ document.nodes := by
  rw [nodes_eq] at *
  exact preorder_subset visited inside

theorem child_mem_sites (member : site ∈ document.sites) {child : Node}
    (below : child ∈ site.node.children) :
    ⟨child, site.node :: site.ancestors⟩ ∈ document.sites := by
  rw [sites_eq] at member ⊢
  exact Syntax.child_mem_sites member below

theorem site_unique {other : Site} (member : site ∈ document.sites)
    (otherMember : other ∈ document.sites) (same : site.node = other.node)
    (covers : site.node.start < site.node.stop) : site = other := by
  rw [sites_eq] at member otherMember
  exact Syntax.site_unique document.ordered member otherMember same covers

end Document

end ComponentSurvey.Syntax
