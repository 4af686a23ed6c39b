import ComponentSurvey.Proofs.Syntax.Parsing

/-!
# What stands between nodes

In an ordered tree two nodes lie apart or one is above the other.  In a grammatical one something
stands between a node and the attributes and statements inside it, and between a statement and an
attribute behind it.
-/

namespace ComponentSurvey.Syntax

open Text

/-! ## Ancestors of a site -/

mutual
theorem ancestors_suffix {node : Node} {ancestors : List Node} {site : Site}
    (member : site ∈ node.sites ancestors) : ancestors <:+ site.ancestors := by
  cases node with
  | mk kind role start stop children =>
      rcases List.mem_cons.mp member with rfl | below
      · exact List.suffix_refl _
      · exact (List.suffix_cons _ _).trans (ancestors_suffix_list below)

theorem ancestors_suffix_list {nodes ancestors : List Node} {site : Site}
    (member : site ∈ Node.sitesList ancestors nodes) : ancestors <:+ site.ancestors := by
  cases nodes with
  | nil => cases member
  | cons first rest =>
      rcases List.mem_append.mp member with inFirst | inRest
      · exact ancestors_suffix inFirst
      · exact ancestors_suffix_list inRest
end

mutual
theorem parent_mem_sites {node : Node} {ancestors : List Node} {site : Site}
    (member : site ∈ node.sites ancestors) :
    site = ⟨node, ancestors⟩ ∨
      ∃ parent ∈ node.sites ancestors,
        site.ancestors = parent.node :: parent.ancestors ∧ site.node ∈ parent.node.children := by
  cases node with
  | mk kind role start stop children =>
      rcases List.mem_cons.mp member with rfl | below
      · exact .inl rfl
      · rcases parent_mem_sitesList below with ⟨above, listed⟩ | ⟨parent, inside, above, listed⟩
        · exact .inr ⟨_, List.mem_cons_self, above, listed⟩
        · exact .inr ⟨parent, List.mem_cons_of_mem _ inside, above, listed⟩

theorem parent_mem_sitesList {nodes ancestors : List Node} {site : Site}
    (member : site ∈ Node.sitesList ancestors nodes) :
    (site.ancestors = ancestors ∧ site.node ∈ nodes) ∨
      ∃ parent ∈ Node.sitesList ancestors nodes,
        site.ancestors = parent.node :: parent.ancestors ∧ site.node ∈ parent.node.children := by
  cases nodes with
  | nil => cases member
  | cons first rest =>
      rcases List.mem_append.mp member with inFirst | inRest
      · rcases parent_mem_sites inFirst with rfl | ⟨parent, inside, above, listed⟩
        · exact .inl ⟨rfl, List.mem_cons_self⟩
        · exact .inr ⟨parent, List.mem_append_left _ inside, above, listed⟩
      · rcases parent_mem_sitesList inRest with ⟨above, listed⟩ | ⟨parent, inside, above, listed⟩
        · exact .inl ⟨above, List.mem_cons_of_mem _ listed⟩
        · exact .inr ⟨parent, List.mem_append_right _ inside, above, listed⟩
end

mutual
/-- Two sites of an ordered tree are the same, one is above the other, or they lie apart. -/
theorem nested_or_apart {node : Node} {ancestors : List Node} (ordered : node.isOrdered = true)
    {first second : Site} (firstMember : first ∈ node.sites ancestors)
    (secondMember : second ∈ node.sites ancestors) :
    first = second ∨ first.node ∈ second.ancestors ∨ second.node ∈ first.ancestors ∨
      first.node.stop ≤ second.node.start ∨ second.node.stop ≤ first.node.start := by
  cases node with
  | mk kind role start stop children =>
      rcases List.mem_cons.mp firstMember with rfl | firstBelow <;>
        rcases List.mem_cons.mp secondMember with rfl | secondBelow
      · exact .inl rfl
      · exact .inr (.inl ((ancestors_suffix_list secondBelow).subset List.mem_cons_self))
      · exact .inr (.inr (.inl ((ancestors_suffix_list firstBelow).subset List.mem_cons_self)))
      · exact nested_or_apart_list ordered firstBelow secondBelow

theorem nested_or_apart_list {start stop : Nat} {nodes ancestors : List Node}
    (ordered : Node.isOrderedList start stop nodes = true) {first second : Site}
    (firstMember : first ∈ Node.sitesList ancestors nodes)
    (secondMember : second ∈ Node.sitesList ancestors nodes) :
    first = second ∨ first.node ∈ second.ancestors ∨ second.node ∈ first.ancestors ∨
      first.node.stop ≤ second.node.start ∨ second.node.stop ≤ first.node.start := by
  cases nodes with
  | nil => cases firstMember
  | cons head rest =>
      have here := (Node.liesIn_of_mem ordered List.mem_cons_self).ordered
      simp only [Node.isOrderedList, Bool.and_eq_true, decide_eq_true_eq] at ordered
      rcases List.mem_append.mp firstMember with firstHead | firstRest <;>
        rcases List.mem_append.mp secondMember with secondHead | secondRest
      · exact nested_or_apart here firstHead secondHead
      · exact .inr (.inr (.inr (.inl ((liesIn_site here firstHead).le_stop.trans
          (liesIn_sitesList ordered.2 secondRest).start_le))))
      · exact .inr (.inr (.inr (.inr ((liesIn_site here secondHead).le_stop.trans
          (liesIn_sitesList ordered.2 firstRest).start_le))))
      · exact nested_or_apart_list ordered.2 firstRest secondRest
end

mutual
/-- In the order of a walk a site is above the next ones or in front of them. -/
theorem pairwise_sites {node : Node} (ordered : node.isOrdered = true) (ancestors : List Node) :
    (node.sites ancestors).Pairwise fun first second =>
      first.node ∈ second.ancestors ∨ first.node.stop ≤ second.node.start := by
  cases node with
  | mk kind role start stop children =>
      refine List.pairwise_cons.mpr ⟨fun site below => .inl ?_, pairwise_sitesList ordered _⟩
      exact (ancestors_suffix_list below).subset List.mem_cons_self

theorem pairwise_sitesList {start stop : Nat} {nodes : List Node}
    (ordered : Node.isOrderedList start stop nodes = true) (ancestors : List Node) :
    (Node.sitesList ancestors nodes).Pairwise fun first second =>
      first.node ∈ second.ancestors ∨ first.node.stop ≤ second.node.start := by
  cases nodes with
  | nil => exact .nil
  | cons head rest =>
      have here := (Node.liesIn_of_mem ordered List.mem_cons_self).ordered
      simp only [Node.isOrderedList, Bool.and_eq_true, decide_eq_true_eq] at ordered
      refine List.pairwise_append.mpr
        ⟨pairwise_sites here _, pairwise_sitesList ordered.2 _,
          fun first inHead second inRest => ?_⟩
      exact .inr ((liesIn_site here inHead).le_stop.trans
        (liesIn_sitesList ordered.2 inRest).start_le)
end

/-- Of the nodes with a property the first one stands in front of the others. -/
theorem Node.stop_le_of_head? {start stop : Nat} {nodes : List Node} {isWanted : Node → Bool}
    (ordered : isOrderedList start stop nodes = true) {first other : Node}
    (head : (nodes.filter isWanted).head? = some first) (member : other ∈ nodes)
    (wanted : isWanted other = true) : other = first ∨ first.stop ≤ other.start := by
  induction nodes generalizing start with
  | nil => cases member
  | cons node rest ih =>
      simp only [isOrderedList, Bool.and_eq_true, decide_eq_true_eq] at ordered
      by_cases here : isWanted node = true
      · rw [List.filter_cons_of_pos here, List.head?_cons, Option.some.injEq] at head
        subst head
        exact (List.mem_cons.mp member).imp_right fun later =>
          (liesIn_of_mem ordered.2 later).start_le
      · rw [List.filter_cons_of_neg here] at head
        rcases List.mem_cons.mp member with rfl | later
        · exact absurd wanted here
        · exact ih ordered.2 head later

theorem Node.apart_of_mem {start stop : Nat} {nodes : List Node}
    (ordered : isOrderedList start stop nodes = true) {first second : Node}
    (firstMember : first ∈ nodes) (secondMember : second ∈ nodes) :
    first = second ∨ first.stop ≤ second.start ∨ second.stop ≤ first.start := by
  induction nodes generalizing start with
  | nil => cases firstMember
  | cons head rest ih =>
      simp only [isOrderedList, Bool.and_eq_true, decide_eq_true_eq] at ordered
      rcases List.mem_cons.mp firstMember with rfl | firstRest <;>
        rcases List.mem_cons.mp secondMember with rfl | secondRest
      · exact .inl rfl
      · exact .inr (.inl (liesIn_of_mem ordered.2 secondRest).start_le)
      · exact .inr (.inr (liesIn_of_mem ordered.2 firstRest).start_le)
      · exact ih ordered.2 firstRest secondRest

theorem Node.children_apart {parent first second : Node} (ordered : parent.isOrdered = true)
    (firstMember : first ∈ parent.children) (secondMember : second ∈ parent.children) :
    first = second ∨ first.stop ≤ second.start ∨ second.stop ≤ first.start := by
  cases parent
  exact apart_of_mem ordered firstMember secondMember

/-! ## Sites of a grammatical document -/

mutual
theorem Grammatical.of_mem_sites {text : List Char} {node : Node}
    (grammatical : Grammatical text node) {ancestors : List Node} {site : Site}
    (member : site ∈ node.sites ancestors) : Grammatical text site.node := by
  cases node with
  | mk kind role start stop children =>
      rcases List.mem_cons.mp member with rfl | below
      · exact grammatical
      · exact Grammatical.of_mem_sitesList (fun part listed => grammatical.part listed) below

theorem Grammatical.of_mem_sitesList {text : List Char} {nodes : List Node}
    (each : ∀ node ∈ nodes, Grammatical text node) {ancestors : List Node} {site : Site}
    (member : site ∈ Node.sitesList ancestors nodes) : Grammatical text site.node := by
  cases nodes with
  | nil => cases member
  | cons first rest =>
      rcases List.mem_append.mp member with inFirst | inRest
      · exact Grammatical.of_mem_sites (each first List.mem_cons_self) inFirst
      · exact Grammatical.of_mem_sitesList
          (fun node listed => each node (List.mem_cons_of_mem _ listed)) inRest
end

namespace Document

variable {document : Document} {site first second : Site} {ancestor : Node}

theorem parent_mem_sites (member : site ∈ document.sites) :
    (site.node = document.root ∧ site.ancestors = []) ∨
      ∃ parent ∈ document.sites,
        site.ancestors = parent.node :: parent.ancestors ∧ site.node ∈ parent.node.children := by
  rw [sites_eq] at *
  exact (Syntax.parent_mem_sites member).imp_left fun same => by simp [same]

theorem pairwise_sites (document : Document) :
    document.sites.Pairwise fun first second =>
      first.node ∈ second.ancestors ∨ first.node.stop ≤ second.node.start := by
  rw [sites_eq]
  exact Syntax.pairwise_sites document.ordered []

theorem nested_or_apart (firstMember : first ∈ document.sites)
    (secondMember : second ∈ document.sites) :
    first = second ∨ first.node ∈ second.ancestors ∨ second.node ∈ first.ancestors ∨
      first.node.stop ≤ second.node.start ∨ second.node.stop ≤ first.node.start := by
  rw [sites_eq] at *
  exact Syntax.nested_or_apart document.ordered firstMember secondMember

@[elab_as_elim]
theorem ancestor_induction {motive : Site → Prop} (member : site ∈ document.sites)
    (above : ancestor ∈ site.ancestors)
    (child : ∀ parent ∈ document.sites, ∀ child ∈ parent.node.children,
      parent.node = ancestor ∨ ancestor ∈ parent.ancestors ∧ motive parent →
        motive ⟨child, parent.node :: parent.ancestors⟩) : motive site := by
  obtain ⟨node, ancestors⟩ := site
  induction ancestors generalizing node with
  | nil => cases above
  | cons next ancestors ih =>
      obtain ⟨-, rootless⟩ | ⟨parent, inside, same, below⟩ := parent_mem_sites member
      · cases rootless
      · obtain ⟨rfl, rfl⟩ := List.cons.inj same
        refine child parent inside node below ?_
        rcases List.mem_cons.mp above with rfl | above
        · exact .inl rfl
        · exact .inr ⟨above, ih _ inside above⟩

theorem liesIn_of_mem_children {parent child : Node} (ordered : parent.isOrdered = true)
    (below : child ∈ parent.children) : child.LiesIn parent.start parent.stop := by
  cases parent
  exact Node.liesIn_of_mem ordered below

theorem liesIn_ancestor (member : site ∈ document.sites) (above : ancestor ∈ site.ancestors) :
    site.node.LiesIn ancestor.start ancestor.stop := by
  refine ancestor_induction member above fun parent inside child below outer => ?_
  have lies := liesIn_of_mem_children (liesIn_of_mem_sites inside).ordered below
  rcases outer with rfl | ⟨-, within⟩
  · exact lies
  · exact lies.widen within.start_le within.le_stop

theorem liesIn_root (member : site ∈ document.sites) :
    site.node.LiesIn document.root.start document.root.stop := by
  rw [sites_eq] at member
  exact liesIn_site document.ordered member

theorem child_around (member : site ∈ document.sites) (above : ancestor ∈ site.ancestors) :
    site.node ∈ ancestor.children ∨ ∃ child ∈ ancestor.children, child ∈ site.ancestors := by
  refine ancestor_induction member above fun parent inside child below outer => ?_
  rcases outer with rfl | ⟨-, listed | ⟨around, listed, isAbove⟩⟩
  · exact .inl below
  · exact .inr ⟨parent.node, listed, List.mem_cons_self⟩
  · exact .inr ⟨around, listed, List.mem_cons_of_mem _ isAbove⟩

section Grammatical

variable (grammatical : Grammatical document.source document.root)
include grammatical

theorem grammatical_of_mem_sites (member : site ∈ document.sites) :
    Grammatical document.source site.node := by
  rw [sites_eq] at member
  exact grammatical.of_mem_sites member

theorem isMinor_of_above (member : site ∈ document.sites) (above : ancestor ∈ site.ancestors)
    (single : (ancestor.kind.isAtom || ancestor.kind.isMinor) = true) :
    site.node.kind.isMinor = true := by
  refine ancestor_induction member above fun parent inside child below outer => ?_
  refine (grammatical_of_mem_sites grammatical inside).production.single ?_ child below
  rcases outer with rfl | ⟨-, isMinor⟩
  · exact single
  · simp [isMinor]

/-- An attribute stands behind the bracket of its tag, wherever the tag is. -/
theorem bracket_before_attribute (member : site ∈ document.sites)
    (above : ancestor ∈ site.ancestors) (isAttribute : site.node.kind = .jsxAttribute) :
    ∃ bracket, ancestor.start ≤ bracket ∧ bracket < site.node.start ∧
      CharAt document.source bracket '<' := by
  obtain ⟨-, rootless⟩ | ⟨parent, inside, same, below⟩ := parent_mem_sites member
  · rw [rootless] at above
    cases above
  · obtain ⟨⟨bracket, behind, before, there⟩, -⟩ :=
      (grammatical_of_mem_sites grammatical inside).production.tagged _ below isAttribute
    rw [same] at above
    rcases List.mem_cons.mp above with rfl | above
    · exact ⟨bracket, behind, before, there⟩
    · exact ⟨bracket, (liesIn_ancestor inside above).start_le.trans behind, before, there⟩

/-- A statement inside a node that is no compound statement begins behind the node's beginning and
before a brace that the node closes. -/
theorem brace_behind_statement (member : site ∈ document.sites)
    (above : ancestor ∈ site.ancestors) (closed : ancestor.kind.isCompound = false)
    (isOpenEnded : site.node.kind.isOpenEnded = true) :
    ancestor.start < site.node.start ∧
      ∃ brace, site.node.stop ≤ brace ∧ brace < ancestor.stop ∧
        CharAt document.source brace '\x7d' := by
  revert isOpenEnded
  refine ancestor_induction member above fun parent inside child below outer isOpenEnded => ?_
  have lies := liesIn_of_mem_children (liesIn_of_mem_sites inside).ordered below
  have nested :=
    (grammatical_of_mem_sites grammatical inside).production.nested child below isOpenEnded
  rcases outer with rfl | ⟨above, within⟩
  · exact nested.resolve_left (by simp [closed])
  · have around := liesIn_ancestor inside above
    rcases nested with isCompound | ⟨starts, brace, behind, before, there⟩
    · -- the parent is a statement itself, and the brace that closes it closes the child as well
      obtain ⟨starts, brace, behind, before, there⟩ :=
        within (Bool.and_eq_true_iff.mp isCompound).1
      exact ⟨starts.trans_le lies.start_le, brace, lies.le_stop.trans behind, before, there⟩
    · exact ⟨around.start_le.trans_lt starts, brace, behind, before.trans_le around.le_stop, there⟩

/-- Between a statement and an attribute behind it a tag opens or a brace closes. -/
theorem mark_between (firstMember : first ∈ document.sites) (secondMember : second ∈ document.sites)
    (isOpenEnded : first.node.kind.isOpenEnded = true)
    (isAttribute : second.node.kind = .jsxAttribute) (covers : first.node.start < first.node.stop)
    (attributeCovers : second.node.start < second.node.stop)
    (behind : first.node.stop ≤ second.node.start) :
    ∃ place c, first.node.stop ≤ place ∧ place < second.node.start ∧
      (c = '<' ∨ c = '\x7d') ∧ CharAt document.source place c := by
  obtain ⟨isRoot, -⟩ | ⟨tag, inside, same, below⟩ := parent_mem_sites secondMember
  · have within := liesIn_root firstMember
    rw [← isRoot] at within
    have starts := within.start_le
    omega
  · have lies := liesIn_of_mem_children (liesIn_of_mem_sites inside).ordered below
    have ⟨⟨bracket, opens, before, there⟩, closed⟩ :=
      (grammatical_of_mem_sites grammatical inside).production.tagged _ below isAttribute
    have tagStarts := lies.start_le
    have tagStops := lies.le_stop
    rcases nested_or_apart firstMember inside with rfl | outer | inner | apart | apart
    · omega
    · have around := liesIn_ancestor inside outer
      have stops := around.le_stop
      omega
    · rcases child_around firstMember inner with listed | ⟨child, listed, isAbove⟩
      · exact absurd isOpenEnded (closed _ listed)
      · have notCompound : child.kind.isCompound = false := by
          simp [Kind.isCompound, closed child listed]
        obtain ⟨-, brace, stops, inChild, there⟩ :=
          brace_behind_statement grammatical firstMember isAbove notCompound isOpenEnded
        have around := liesIn_ancestor firstMember isAbove
        have starts := around.start_le
        have ends := around.le_stop
        refine ⟨brace, '\x7d', stops, ?_, .inr rfl, there⟩
        rcases Node.children_apart (liesIn_of_mem_sites inside).ordered listed below with
          rfl | apart | apart <;> omega
    · exact ⟨bracket, '<', apart.trans opens, before, .inl rfl, there⟩
    · omega

end Grammatical

end Document

end ComponentSurvey.Syntax
