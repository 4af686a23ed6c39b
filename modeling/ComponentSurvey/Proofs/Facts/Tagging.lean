import ComponentSurvey.Facts.Extraction
import ComponentSurvey.Proofs.Order.Grouping
import Mathlib.Data.List.Forall2
import Mathlib.Data.List.Induction

/-!
# Tests that tag a usage

Every test of a battery decides for itself: a usage is tagged with a name just when some test of
that name passes.  Further tests can only add tags, behind those that are there, and leave the rest
of a usage as it is.
-/

namespace ComponentSurvey

open Syntax

variable {battery more : List Predicate} {context : UsageContext}

def passingNames (battery : List Predicate) (context : UsageContext) : List String :=
  (battery.filter fun predicate => predicate.test context).map Predicate.name

theorem passingNames_append :
    passingNames (battery ++ more) context =
      passingNames battery context ++ passingNames more context := by
  rw [passingNames, List.filter_append, List.map_append, passingNames, passingNames]

theorem passingNames_singleton (predicate : Predicate) :
    passingNames [predicate] context = if predicate.test context then [predicate.name] else [] := by
  cases passes : predicate.test context <;> simp [passingNames, passes]

theorem mem_passingNames {name : String} :
    name ∈ passingNames battery context ↔
      ∃ predicate ∈ battery, predicate.name = name ∧ predicate.test context = true := by
  simp only [passingNames, List.mem_map, List.mem_filter]
  exact exists_congr fun _ => and_right_comm.trans and_assoc

theorem tags_concat (battery : List Predicate) (predicate : Predicate) (context : UsageContext) :
    tags (battery ++ [predicate]) context =
      if predicate.test context && !(tags battery context).contains predicate.name then
        tags battery context ++ [predicate.name]
      else tags battery context := by
  rw [tags, List.foldl_append]
  rfl

theorem tags_eq_eraseDups (battery : List Predicate) (context : UsageContext) :
    tags battery context = (passingNames battery context).eraseDups := by
  induction battery using List.reverseRecOn with
  | nil => rfl
  | append_singleton earlier predicate ih =>
      rw [tags_concat, passingNames_append, passingNames_singleton, ih]
      cases predicate.test context with
      | false => simp
      | true =>
          rw [if_pos rfl, Order.eraseDups_concat]
          simp [List.mem_eraseDups]

theorem mem_tags {name : String} :
    name ∈ tags battery context ↔
      ∃ predicate ∈ battery, predicate.name = name ∧ predicate.test context = true := by
  rw [tags_eq_eraseDups, List.mem_eraseDups, mem_passingNames]

def newTags (battery more : List Predicate) (context : UsageContext) : List String :=
  ((passingNames more context).filter fun name => name ∉ tags battery context).eraseDups

theorem tags_append (battery more : List Predicate) (context : UsageContext) :
    tags (battery ++ more) context = tags battery context ++ newTags battery more context := by
  have fresh : (passingNames more context).removeAll (passingNames battery context) =
      (passingNames more context).filter fun name => name ∉ tags battery context := by
    refine List.filter_congr fun name _ => ?_
    simp [tags_eq_eraseDups battery, List.mem_eraseDups]
  rw [tags_eq_eraseDups, passingNames_append, List.eraseDups_append, fresh, newTags,
    tags_eq_eraseDups battery]

/-- A name that failed at first is added by a later test, and one that is there is not. -/
example :
    tags ([⟨"form", fun _ => false⟩, ⟨"grid", fun _ => true⟩] ++
      [⟨"grid", fun _ => true⟩, ⟨"form", fun _ => true⟩]) default = ["grid", "form"] := by
  decide

theorem usageAt?_other {document : Document} {evidence : Evidence} {site : Site} {usage : Usage}
    (extracted : usageAt? battery document evidence site = some usage) :
    ∃ context, usage.patterns = tags battery context ∧ ∀ other,
      usageAt? other document evidence site =
        some { usage with patterns := tags other context } := by
  simp only [usageAt?, Option.bind_eq_bind, Option.bind_eq_some_iff, Option.pure_def,
    Option.some.injEq] at extracted
  obtain ⟨tag, named, resolved, resolves, rfl⟩ := extracted
  exact ⟨_, rfl, fun other => by simp [usageAt?, named, resolves]⟩

def Usage.IsExtended (battery more : List Predicate) (before after : Usage) : Prop :=
  ∃ context, before.patterns = tags battery context ∧
    after = { before with patterns := before.patterns ++ newTags battery more context }

theorem usageAt?_append (battery more : List Predicate) (document : Document)
    (evidence : Evidence) (site : Site) :
    Option.Rel (Usage.IsExtended battery more) (usageAt? battery document evidence site)
      (usageAt? (battery ++ more) document evidence site) := by
  cases before : usageAt? battery document evidence site with
  | some usage =>
      obtain ⟨context, patterns, others⟩ := usageAt?_other before
      rw [others, tags_append, ← patterns]
      exact .some ⟨context, patterns, rfl⟩
  | none =>
      cases after : usageAt? (battery ++ more) document evidence site with
      | none => exact .none
      | some usage =>
          obtain ⟨context, -, others⟩ := usageAt?_other after
          rw [others battery] at before
          cases before

theorem extractUsages_append (battery more : List Predicate) (document : Document) :
    List.Forall₂ (Usage.IsExtended battery more) (extractUsages battery document)
      (extractUsages (battery ++ more) document) := by
  refine List.rel_filterMap ?_ (List.forall₂_eq_eq_eq ▸ rfl)
  rintro site _ rfl
  exact usageAt?_append battery more document _ site

/-- Further tests append the names that pass and are not there yet, to the tags and so to every
extracted usage.  A name is there just when a test of that name passes, and it is there once. -/
theorem tags_registered (battery more : List Predicate) :
    (∀ context, tags (battery ++ more) context =
      tags battery context ++ newTags battery more context) ∧
    (∀ context name, name ∈ tags battery context ↔
      ∃ predicate ∈ battery, predicate.name = name ∧ predicate.test context = true) ∧
    (∀ context, (tags battery context).Nodup) ∧
    ∀ document, List.Forall₂ (Usage.IsExtended battery more) (extractUsages battery document)
      (extractUsages (battery ++ more) document) := by
  refine ⟨tags_append battery more, fun context name => mem_tags, fun context => ?_,
    extractUsages_append battery more⟩
  rw [tags_eq_eraseDups]
  exact Order.nodup_eraseDups _

end ComponentSurvey
