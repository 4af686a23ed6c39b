/-!
# Ordered insertion

A stable sort: elements that are equal in the order keep the order in which they came.
-/

namespace ComponentSurvey.Order

variable {α : Type}

def insertBefore (le : α → α → Bool) (value : α) : List α → List α
  | [] => [value]
  | next :: rest =>
    if le value next then value :: next :: rest else next :: insertBefore le value rest

def sortBy (le : α → α → Bool) (values : List α) : List α :=
  values.foldr (insertBefore le) []

theorem mem_insertBefore {le : α → α → Bool} {value x : α} {values : List α} :
    x ∈ insertBefore le value values ↔ x = value ∨ x ∈ values := by
  induction values with
  | nil => simp [insertBefore]
  | cons next rest ih =>
    simp only [insertBefore]
    split
    · simp
    · simp only [List.mem_cons, ih]
      grind

theorem mem_sortBy {le : α → α → Bool} {x : α} {values : List α} :
    x ∈ sortBy le values ↔ x ∈ values := by
  induction values with
  | nil => simp [sortBy]
  | cons value rest ih =>
    simp only [sortBy, List.foldr_cons, mem_insertBefore, List.mem_cons]
    exact or_congr_right ih

end ComponentSurvey.Order
