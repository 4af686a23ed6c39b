import ComponentSurvey.Proofs.Facts.Usages
import ComponentSurvey.Proofs.Syntax.Separation
import ComponentSurvey.Proofs.Text.Addresses
import Mathlib.Data.List.Forall2

/-!
# Usages in the order of the text

A walk meets a tag before everything inside it, and what a tag holds stands behind the bracket that
opens the tag.  So tags that are met later begin later, even where one of them stands inside
another.
-/

namespace ComponentSurvey

open Syntax

namespace Syntax.Document

variable {document : Document} {site first second : Site} {ancestor name : Node}

section Grammatical

variable (grammatical : Grammatical document.source document.root)
include grammatical

/-- What stands somewhere inside a tag stands behind its bracket, but for comments. -/
theorem start_lt_of_tag_above (member : site ∈ document.sites) (above : ancestor ∈ site.ancestors)
    (opensTag : ancestor.kind.opensTag = true) (solid : site.node.kind.isMinor = false) :
    ancestor.start < site.node.start := by
  obtain ⟨around, inside, rfl⟩ := List.mem_map.mp (ancestor_mem_nodes member above)
  have opened := (grammatical_of_mem_sites grammatical inside).production.opened opensTag
  rcases child_around member above with below | ⟨child, below, isAbove⟩
  · exact (opened _ below).resolve_left (by simp [solid])
  · rcases opened child below with isMinor | behind
    · have within := isMinor_of_above grammatical member isAbove (by simp [isMinor])
      rw [within] at solid
      cases solid
    · exact behind.trans_le (liesIn_ancestor member isAbove).start_le

theorem start_lt_stop_of_named (member : site ∈ document.sites)
    (opensTag : site.node.kind.opensTag = true) (named : site.node.child? .name = some name)
    (solid : name.kind.isMinor = false) : site.node.start < site.node.stop := by
  have below := Node.mem_children_of_child? named
  have lies := liesIn_of_mem_children (liesIn_of_mem_sites member).ordered below
  have opened := (grammatical_of_mem_sites grammatical member).production.opened opensTag
  have behind := (opened name below).resolve_left (by simp [solid])
  exact behind.trans_le ((Node.start_le_stop name lies.ordered).trans lies.le_stop)

end Grammatical

theorem position_lt_position (member : second ∈ document.sites)
    (before : first.node.start < second.node.start) :
    toLex (document.position first.node) < toLex (document.position second.node) := by
  have lies := liesIn_of_mem_sites member
  exact Text.lineColumn_lt_lineColumn before
    ((Node.start_le_stop _ lies.ordered).trans lies.le_stop)

end Syntax.Document

variable {battery : List Predicate} {document : Document} {evidence : Evidence} {site : Site}
  {usage : Usage}

theorem isMinor_of_resolveTag? {imports : Imports} {tag : Node} {resolved : ResolvedTag}
    (found : resolveTag? document imports tag = some resolved) : tag.kind.isMinor = false := by
  unfold resolveTag? at found
  dsimp only at found
  split at found
  · rename_i kind
    rw [kind]
    rfl
  · rename_i kind
    rw [kind]
    rfl
  · rename_i kind
    rw [kind]
    rfl
  · cases found

theorem exists_name_of_usageAt? (extracted : usageAt? battery document evidence site = some usage) :
    ∃ name, site.node.child? .name = some name ∧ name.kind.isMinor = false := by
  simp only [usageAt?, Option.bind_eq_bind, Option.bind_eq_some_iff] at extracted
  obtain ⟨name, named, resolved, found, -⟩ := extracted
  exact ⟨name, named, isMinor_of_resolveTag? found⟩

theorem opensTag_of_isTag {kind : Kind} (tag : isTag kind = true) :
    kind.opensTag = true ∧ kind.isMinor = false := by
  simp only [isTag, Bool.or_eq_true, decide_eq_true_eq] at tag
  rcases tag with rfl | rfl <;> exact ⟨rfl, rfl⟩

/-- The later usage begins later, whether its tag stands behind the other's or inside it. -/
theorem pairwise_usagesOf (grammatical : Grammatical document.source document.root) :
    (usagesOf battery document evidence).Pairwise fun first second =>
      toLex (first.line, first.column) < toLex (second.line, second.column) := by
  rw [usagesOf, List.pairwise_filterMap]
  refine (document.pairwise_sites.filter _).imp_of_mem ?_
  intro here there hereListed thereListed order first firstRead second secondRead
  obtain ⟨hereVisited, hereTag⟩ := List.mem_filter.mp hereListed
  obtain ⟨thereVisited, thereTag⟩ := List.mem_filter.mp thereListed
  have before : here.node.start < there.node.start := by
    rcases order with above | apart
    · exact Document.start_lt_of_tag_above grammatical thereVisited above
        (opensTag_of_isTag hereTag).1 (opensTag_of_isTag thereTag).2
    · obtain ⟨name, named, solid⟩ := exists_name_of_usageAt? firstRead
      exact (Document.start_lt_stop_of_named grammatical hereVisited (opensTag_of_isTag hereTag).1
        named solid).trans_le apart
  have positions := Document.position_lt_position thereVisited before
  rwa [(readAt_of_usageAt? firstRead).position, (readAt_of_usageAt? secondRead).position]
    at positions

theorem exists_taken_of_filterMap {α β : Type} (read? : α → Option β) (values : List α) :
    ∃ taken, taken.Sublist values ∧
      List.Forall₂ (fun value found => read? value = some found) taken
        (values.filterMap read?) := by
  induction values with
  | nil => exact ⟨[], .slnil, .nil⟩
  | cons value rest ih =>
      obtain ⟨taken, sublist, each⟩ := ih
      cases found : read? value with
      | none => exact ⟨taken, sublist.cons _, by rwa [List.filterMap_cons_none found]⟩
      | some result =>
          exact ⟨value :: taken, sublist.cons_cons _,
            List.filterMap_cons_some found ▸ .cons found each⟩

theorem exists_sites_of_usagesOf (battery : List Predicate) (document : Document)
    (evidence : Evidence) :
    ∃ sites, sites.Sublist document.sites ∧
      List.Forall₂ (fun site usage => isTag site.node.kind = true ∧
        document.position site.node = (usage.line, usage.column)) sites
        (usagesOf battery document evidence) := by
  obtain ⟨sites, sublist, each⟩ := exists_taken_of_filterMap
    (fun site => if isTag site.node.kind then usageAt? battery document evidence site else none)
    document.sites
  rw [usagesOf, List.filterMap_filter]
  refine ⟨sites, sublist, each.imp fun site usage found => ?_⟩
  split at found
  · rename_i tag
    exact ⟨tag, (readAt_of_usageAt? found).position⟩
  · cases found

/-- The usages of a parsed text are read off tags that the walk over the tree arrives at one after
the other, and their positions strictly increase. -/
theorem usages_in_source_order {dialect : Dialect} {path : String} {source : List Char}
    (parsed : Document.parse? dialect path source = some document) :
    (∃ sites, sites.Sublist document.sites ∧
      List.Forall₂ (fun site usage => isTag site.node.kind = true ∧
        document.position site.node = (usage.line, usage.column)) sites
        (extractUsages battery document)) ∧
    (extractUsages battery document).Pairwise fun first second =>
      toLex (first.line, first.column) < toLex (second.line, second.column) :=
  ⟨exists_sites_of_usagesOf battery document _,
    pairwise_usagesOf (Document.grammatical_of_parse? parsed)⟩

def nestedFields : List Char :=
  ("const form = <ArchbaseFormTemplate icon=\x7b<ArchbaseEdit />\x7d>\n" ++
    "  \x7brows.map(row => <ArchbaseEdit a=\"\" />)\x7d<ArchbaseSelect />\n" ++
    "</ArchbaseFormTemplate>;\n").toList

theorem usages_in_source_order_nestedFields :
    ∃ document, Document.parse? .markup "src/App.tsx" nestedFields = some document ∧
      (extractUsages Predicate.standard document).map (fun usage => (usage.line, usage.column)) =
        [(1, 13), (1, 41), (2, 19), (2, 42)] ∧
      (extractUsages Predicate.standard document).Pairwise fun first second =>
        toLex (first.line, first.column) < toLex (second.line, second.column) := by
  have read : (Document.parse? .markup "src/App.tsx" nestedFields).any (fun document =>
      (extractUsages Predicate.standard document).map (fun usage => (usage.line, usage.column)) =
        [(1, 13), (1, 41), (2, 19), (2, 42)]) = true := by
    decide +kernel
  obtain ⟨document, parsed, told⟩ := (Option.any_eq_true _ _).mp read
  exact ⟨document, parsed, of_decide_eq_true told, (usages_in_source_order parsed).2⟩

end ComponentSurvey
