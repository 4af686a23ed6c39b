import ComponentSurvey.Proofs.Migration.References
import Mathlib.Data.List.Nodup

/-!
# Local names of renamed imports

An import is left in place if the library's binding of the successor is there already.  Only that
binding is looked for, under the name that the library exports it by: a binding of another module
or an alias may have the successor as its local name, and then two imports bind one name.
-/

namespace ComponentSurvey.DataSourceUpgrade

open Syntax

variable {document : Document} {imports : Imports}

theorem renamed?_successor {old new : String} (successor : renamed? old = some new) :
    renamed? new = none := by
  have settled : ∀ entry ∈ factoryRenames, renamed? entry.2 = none := by decide
  exact settled _ (mem_factoryRenames successor)

theorem renamed?_injective {first second new : String} (ofFirst : renamed? first = some new)
    (ofSecond : renamed? second = some new) : first = second := by
  have apart : ∀ entry ∈ factoryRenames, ∀ other ∈ factoryRenames,
      entry.2 = other.2 → entry.1 = other.1 := by decide
  exact apart _ (mem_factoryRenames ofFirst) _ (mem_factoryRenames ofSecond) rfl

def nameAfter (given : List String) (name : String) : String :=
  if name ∈ given then (renamed? name).getD name else name

theorem nameAfter_of_mem {given : List String} {old new : String} (listed : old ∈ given)
    (successor : renamed? old = some new) : nameAfter given old = new := by
  rw [nameAfter, if_pos listed, successor, Option.getD_some]

theorem nameAfter_of_renamed?_eq_none {given : List String} {name : String}
    (settled : renamed? name = none) : nameAfter given name = name := by
  rw [nameAfter, settled, Option.getD_none, ite_self]

theorem nameAfter_cases (given : List String) (name : String) :
    nameAfter given name = name ∨
      name ∈ given ∧ renamed? name = some (nameAfter given name) := by
  by_cases listed : name ∈ given
  · cases successor : renamed? name with
    | none => exact .inl (nameAfter_of_renamed?_eq_none successor)
    | some new => exact .inr ⟨listed, by rw [nameAfter_of_mem listed successor]⟩
  · exact .inl (if_neg listed)

theorem nodup_nameAfter_iff {names : List String} (distinct : names.Nodup)
    (given : List String) :
    (names.map (nameAfter given)).Nodup ↔
      ∀ old ∈ names, old ∈ given → ∀ new, renamed? old = some new → new ∉ names := by
  constructor
  · intro stillDistinct old member listed new successor taken
    have settled := renamed?_successor successor
    have same : nameAfter given old = nameAfter given new := by
      rw [nameAfter_of_mem listed successor, nameAfter_of_renamed?_eq_none settled]
    have joined := List.inj_on_of_nodup_map stillDistinct member taken same
    rw [← joined, successor] at settled
    cases settled
  · intro free
    refine List.Nodup.map_on ?_ distinct
    intro first firstMember second secondMember same
    rcases nameAfter_cases given first with firstStays | ⟨firstListed, firstNew⟩ <;>
      rcases nameAfter_cases given second with secondStays | ⟨secondListed, secondNew⟩
    · rw [← firstStays, same, secondStays]
    · rw [← same, firstStays] at secondNew
      exact absurd firstMember (free second secondMember secondListed first secondNew)
    · rw [same, secondStays] at firstNew
      exact absurd secondMember (free first firstMember firstListed second firstNew)
    · exact renamed?_injective firstNew (same ▸ secondNew)

/-- A successor that a renamed import takes is the local name of no binding but one of another
module or one that stands for another export. -/
theorem foreign_or_aliased_of_taken {old new : String}
    (listed : old ∈ renamedLocals document imports) (successor : renamed? old = some new)
    {binding : Binding} (member : binding ∈ imports.bindings) (taken : binding.localName = new) :
    binding.isLibrary = false ∨ binding.isAliased = true := by
  obtain ⟨entry, unaliased, rfl⟩ := List.mem_map.mp listed
  obtain ⟨found, free⟩ := mem_renamedImports.mp (List.mem_filter.mp unaliased).1
  obtain ⟨specifier, -, -, said⟩ := mem_factoryImports found
  obtain rfl : entry.new = new := Option.some.inj (said.new.symm.trans successor)
  have unseen := List.any_eq_false.mp free binding member
  simp only [Bool.and_eq_true, decide_eq_true_eq, not_and] at unseen
  cases library : binding.isLibrary with
  | false => exact .inl rfl
  | true =>
      have apart := unseen library
      rw [← taken] at apart
      exact .inr (decide_eq_true apart)

/-- Imports with distinct local names keep them distinct exactly if no binding of another module
and no alias has the successor of a renamed import as its local name. -/
theorem localNames_distinct_iff (document : Document) (imports : Imports)
    (distinct : (imports.bindings.map Binding.localName).Nodup) :
    (imports.bindings.map fun binding =>
        nameAfter (renamedLocals document imports) binding.localName).Nodup ↔
      ∀ binding ∈ imports.bindings, ∀ other ∈ imports.bindings,
        binding.localName ∈ renamedLocals document imports →
        other.isLibrary = false ∨ other.isAliased = true →
        renamed? binding.localName ≠ some other.localName := by
  have names := nodup_nameAfter_iff distinct (renamedLocals document imports)
  rw [List.map_map] at names
  refine names.trans ⟨?_, ?_⟩
  · intro free binding member other otherMember listed _ successor
    exact free binding.localName (List.mem_map_of_mem member) listed other.localName successor
      (List.mem_map_of_mem otherMember)
  · intro free old oldMember listed new successor newMember
    obtain ⟨binding, member, rfl⟩ := List.mem_map.mp oldMember
    obtain ⟨other, otherMember, rfl⟩ := List.mem_map.mp newMember
    exact free binding member other otherMember listed
      (foreign_or_aliased_of_taken listed successor otherMember rfl) successor

def localNames (document : Document) : List String :=
  (Imports.ofDocument document).bindings.map Binding.localName

/-- Imports with distinct local names have distinct ones in the upgraded text. -/
def keepsImportsApart (path : String) (source : List Char) : Bool :=
  upgradeRelates path source fun before after =>
    decide ((localNames before).Nodup → (localNames after).Nodup)

def ownSuccessor : List Char :=
  "import \x7b ArchbaseDataSource \x7d from '@archbase/react';\n".toList ++
    "import \x7b ArchbaseRemoteDataSource \x7d from './remote';\n".toList

theorem ownSuccessor_collides :
    ((run "src/App.tsx" ownSuccessor).code.bind
        (Document.ofComponentFile? "src/App.tsx")).map localNames =
      some ["ArchbaseRemoteDataSource", "ArchbaseRemoteDataSource"] ∧
      keepsImportsApart "src/App.tsx" ownSuccessor = false := by
  decide +kernel

end ComponentSurvey.DataSourceUpgrade
