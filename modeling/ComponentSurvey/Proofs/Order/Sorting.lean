import ComponentSurvey.Order.Insertion
import Mathlib.Data.List.Basic
import Mathlib.Order.Lattice

/-!
# Sorting by a key

When an order compares keys, sorting permutes the values into the order of
their keys; with distinct keys each comes strictly before the next.
-/

namespace ComponentSurvey.Order

variable {α κ : Type} [LinearOrder κ] {le : α → α → Bool} {key : α → κ}

theorem insertBefore_perm (value : α) (values : List α) :
    (insertBefore le value values).Perm (value :: values) := by
  induction values with
  | nil => exact .refl _
  | cons next rest ih =>
      simp only [insertBefore]
      split
      · exact .refl _
      · exact (ih.cons next).trans (.swap value next rest)

theorem sortBy_perm (values : List α) : (sortBy le values).Perm values := by
  induction values with
  | nil => exact .refl _
  | cons value rest ih => exact (insertBefore_perm value _).trans (ih.cons value)

private theorem pairwise_insertBefore
    (keyed : ∀ first second, le first second = true ↔ key first ≤ key second)
    (value : α) (values : List α)
    (sorted : values.Pairwise fun first second => key first ≤ key second) :
    (insertBefore le value values).Pairwise
      fun first second => key first ≤ key second := by
  induction values with
  | nil => simp [insertBefore]
  | cons next rest ih =>
      obtain ⟨nextLe, restSorted⟩ := List.pairwise_cons.mp sorted
      simp only [insertBefore]
      split
      · rename_i precedes
        refine List.pairwise_cons.mpr ⟨?_, sorted⟩
        intro other member
        have valueLe := (keyed value next).mp precedes
        rcases List.mem_cons.mp member with rfl | later
        · exact valueLe
        · exact le_trans valueLe (nextLe other later)
      · rename_i follows
        refine List.pairwise_cons.mpr ⟨?_, ih restSorted⟩
        intro other member
        rcases mem_insertBefore.mp member with rfl | later
        · exact le_of_not_ge fun valueLe => follows ((keyed _ _).mpr valueLe)
        · exact nextLe other later

theorem pairwise_sortBy
    (keyed : ∀ first second, le first second = true ↔ key first ≤ key second)
    (values : List α) :
    (sortBy le values).Pairwise fun first second => key first ≤ key second := by
  induction values with
  | nil => exact .nil
  | cons value rest ih => exact pairwise_insertBefore keyed value _ ih

theorem pairwise_lt_sortBy
    (keyed : ∀ first second, le first second = true ↔ key first ≤ key second)
    (values : List α)
    (distinct : values.Pairwise fun first second => key first ≠ key second) :
    (sortBy le values).Pairwise fun first second => key first < key second := by
  have permuted : (sortBy le values).Perm values := sortBy_perm values
  have apart := distinct.perm permuted.symm fun different => different.symm
  exact (pairwise_sortBy keyed values).imp₂ (fun _ _ => lt_of_le_of_ne) apart

end ComponentSurvey.Order
