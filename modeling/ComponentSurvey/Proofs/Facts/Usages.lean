import ComponentSurvey.Facts.Extraction

/-!
# Usages and their tags

What the parts of a usage are read from, once the component that its tag stands for is found.
-/

namespace ComponentSurvey

open Syntax

structure Usage.ReadAt (battery : List Predicate) (document : Document) (evidence : Evidence)
    (site : Site) (usage : Usage) : Prop where
  file : usage.file = document.path
  position : document.position site.node = (usage.line, usage.column)
  props : usage.props = (placedProps document usage.name site.node).map PlacedProp.prop
  hasDataSource : usage.hasDataSource =
    usage.props.any fun prop => Library.dataSourceProps.contains prop.name
  generation : usage.generation =
    if usage.hasDataSource then boundGeneration document evidence usage.props else .unknown
  patterns : ∃ context, usage.patterns = tags battery context ∧
    context.scopeHooks = (site.outermostFunction?.map (scopeHooks document)).getD []
  issues : usage.issues = detectIssues usage.name usage.line usage.column
    (placedProps document usage.name site.node)

variable {battery : List Predicate} {document : Document} {evidence : Evidence} {site : Site}
  {usage : Usage}

theorem readAt_of_usageAt? (extracted : usageAt? battery document evidence site = some usage) :
    usage.ReadAt battery document evidence site := by
  simp only [usageAt?, Option.bind_eq_bind, Option.bind_eq_some_iff, Option.pure_def,
    Option.some.injEq] at extracted
  obtain ⟨tag, -, resolved, -, rfl⟩ := extracted
  exact ⟨rfl, rfl, rfl, rfl, rfl, ⟨_, rfl, rfl⟩, rfl⟩

theorem exists_site_of_mem_usagesOf (member : usage ∈ usagesOf battery document evidence) :
    ∃ site ∈ document.sites, isTag site.node.kind = true ∧
      usage.ReadAt battery document evidence site := by
  obtain ⟨site, listed, extracted⟩ := List.mem_filterMap.mp member
  obtain ⟨visited, tag⟩ := List.mem_filter.mp listed
  exact ⟨site, visited, tag, readAt_of_usageAt? extracted⟩

theorem file_of_mem_extractUsages (member : usage ∈ extractUsages battery document) :
    usage.file = document.path := by
  obtain ⟨site, -, -, readAt⟩ := exists_site_of_mem_usagesOf member
  exact readAt.file

/-- The tag behind a usage, which its place, its props and its issues are taken from. -/
theorem exists_tag_of_mem_extractUsages (member : usage ∈ extractUsages battery document) :
    ∃ element ∈ document.nodes, isTag element.kind = true ∧
      document.position element = (usage.line, usage.column) ∧
      usage.props = (placedProps document usage.name element).map PlacedProp.prop ∧
      usage.issues = detectIssues usage.name usage.line usage.column
        (placedProps document usage.name element) := by
  obtain ⟨site, visited, tag, readAt⟩ := exists_site_of_mem_usagesOf member
  exact ⟨site.node, List.mem_map_of_mem visited, tag, readAt.position, readAt.props,
    readAt.issues⟩

end ComponentSurvey
