import ComponentSurvey.Order.Distinct
import Mathlib.Data.List.Basic
import Mathlib.Data.List.Induction

/-!
# The first of those that count as the same

`distinctBy` keeps of the values that share a key the one that comes first.
-/

namespace ComponentSurvey.Order

variable {α κ : Type} {same : α → α → Bool} {key : α → κ}

private theorem any_same_iff
    (keyed : ∀ first second, same first second = true ↔ key first = key second)
    (seen : List α) (value : α) :
    seen.any (same value) = true ↔ key value ∈ seen.map key := by
  simp only [List.any_eq_true, List.mem_map, keyed, eq_comm (a := key value)]

theorem pairwise_distinctBy
    (keyed : ∀ first second, same first second = true ↔ key first = key second)
    (values : List α) :
    (distinctBy same values).Pairwise
      fun first second => key first ≠ key second := by
  suffices apart : ∀ seen : List α,
      seen.Pairwise (fun first second => key first ≠ key second) →
      (values.foldl (appendNew same) seen).Pairwise
        fun first second => key first ≠ key second from apart [] .nil
  induction values with
  | nil => exact fun _ sorted => sorted
  | cons value rest ih =>
      intro seen sorted
      apply ih
      simp only [appendNew]
      split
      · exact sorted
      · rename_i fresh
        rw [any_same_iff keyed] at fresh
        refine List.pairwise_append.mpr ⟨sorted, by simp, ?_⟩
        intro earlier member later isNew
        rw [List.mem_singleton.mp isNew]
        exact fun equal => fresh (equal ▸ List.mem_map_of_mem member)

theorem distinctBy_concat (same : α → α → Bool) (values : List α) (next : α) :
    distinctBy same (values ++ [next]) = appendNew same (distinctBy same values) next := by
  rw [distinctBy, List.foldl_append]
  rfl

theorem mem_of_mem_distinctBy {values : List α} {value : α}
    (member : value ∈ distinctBy same values) : value ∈ values := by
  induction values using List.reverseRecOn with
  | nil => exact member
  | append_singleton earlier next ih =>
      rw [distinctBy_concat, appendNew] at member
      split at member
      · exact List.mem_append_left _ (ih member)
      · exact List.mem_append.mpr ((List.mem_append.mp member).imp_left ih)

theorem find?_distinctBy
    (keyed : ∀ first second, same first second = true ↔ key first = key second)
    (asked : α → Bool)
    (byKey : ∀ first second, key first = key second → asked first = asked second)
    (values : List α) :
    (distinctBy same values).find? asked = values.find? asked := by
  suffices found : ∀ seen : List α,
      (values.foldl (appendNew same) seen).find? asked =
        (seen ++ values).find? asked from found []
  induction values with
  | nil => simp
  | cons value rest ih =>
      intro seen
      rw [List.foldl_cons, ih, appendNew]
      split
      · rename_i repeated
        rw [any_same_iff keyed, List.mem_map] at repeated
        obtain ⟨earlier, member, equal⟩ := repeated
        -- what asks for the value has found the earlier one already
        by_cases isAsked : asked value = true
        · have found : (seen.find? asked).isSome = true := by
            rw [List.find?_isSome]
            exact ⟨earlier, member, (byKey _ _ equal).trans isAsked⟩
          simp only [List.find?_append, Option.or_of_isSome found]
        · simp [List.find?_append, List.find?_cons_of_neg isAsked]
      · rw [List.append_assoc, List.singleton_append]

private theorem foldl_appendNew_reverse (same : α → α → Bool) (values seen : List α) :
    values.foldl (appendNew same) seen.reverse = List.eraseDupsBy.loop same values seen := by
  induction values generalizing seen with
  | nil => rfl
  | cons value rest ih =>
      rw [List.foldl_cons, appendNew, List.any_reverse, List.eraseDupsBy.loop]
      cases seen.any (same value) with
      | true => exact ih seen
      | false => exact List.reverse_cons ▸ ih (value :: seen)

theorem distinctBy_eq_eraseDupsBy (same : α → α → Bool) (values : List α) :
    distinctBy same values = values.eraseDupsBy same :=
  foldl_appendNew_reverse same values []

theorem distinct_eq_eraseDups [BEq α] (values : List α) :
    distinct values = values.eraseDups :=
  distinctBy_eq_eraseDupsBy _ values

theorem mem_distinct [BEq α] [LawfulBEq α] {values : List α} {value : α} :
    value ∈ distinct values ↔ value ∈ values := by
  rw [distinct_eq_eraseDups, List.mem_eraseDups]

end ComponentSurvey.Order
