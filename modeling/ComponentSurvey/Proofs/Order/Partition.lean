import ComponentSurvey.Order.Partition

/-!
# The place between two parts

On a list whose front passes a test and whose back does not, halving finds the
end of the front, and what is inserted there stands between the two parts.
-/

namespace ComponentSurvey.Order

variable {α : Type} {test : α → Bool} {front back : List α}

private theorem any_getElem?_append
    (passes : ∀ value ∈ front, test value = true)
    (fails : ∀ value ∈ back, test value = false) (index : Nat) :
    (front ++ back)[index]?.any test = decide (index < front.length) := by
  by_cases before : index < front.length
  · rw [List.getElem?_append_left before, List.getElem?_eq_getElem before]
    simpa [before] using passes _ (List.getElem_mem before)
  · rw [List.getElem?_append_right (Nat.le_of_not_lt before)]
    cases found : back[index - front.length]? with
    | none => simp [before]
    | some value =>
        simpa [before] using fails value (List.mem_of_getElem? found)

/-- The end of the front stays among the places still looked at. -/
private theorem narrow_bounds
    (passes : ∀ value ∈ front, test value = true)
    (fails : ∀ value ∈ back, test value = false)
    (fuel base size : Nat) (enough : size ≤ fuel)
    (lower : base ≤ front.length) (upper : front.length ≤ base + size) :
    narrow test (front ++ back) fuel base size ≤ front.length ∧
      front.length ≤ narrow test (front ++ back) fuel base size + 1 := by
  induction fuel generalizing base size with
  | zero =>
      simp only [narrow]
      omega
  | succ fuel ih =>
      simp only [narrow]
      split
      · omega
      · -- the value in the middle tells on which side of it the front ends
        rw [any_getElem?_append passes fails]
        have half : size - size / 2 ≤ fuel := by omega
        by_cases middle : base + size / 2 < front.length
        · simp only [middle, decide_true, if_true]
          exact ih _ _ half (Nat.le_of_lt middle) (by omega)
        · simp only [middle, decide_false, Bool.false_eq_true, if_false]
          exact ih _ _ half lower (by omega)

theorem partitionPoint_append
    (passes : ∀ value ∈ front, test value = true)
    (fails : ∀ value ∈ back, test value = false) :
    partitionPoint test (front ++ back) = front.length := by
  have bounds := narrow_bounds passes fails (front ++ back).length 0
    (front ++ back).length (Nat.le_refl _) (Nat.zero_le _) (by simp)
  simp only [partitionPoint, any_getElem?_append passes fails,
    decide_eq_true_eq]
  split <;> omega

theorem insertAt_partitionPoint
    (passes : ∀ value ∈ front, test value = true)
    (fails : ∀ value ∈ back, test value = false) (added : List α) :
    insertAt (front ++ back) (partitionPoint test (front ++ back)) added =
      front ++ added ++ back := by
  rw [partitionPoint_append passes fails, insertAt, List.take_left,
    List.drop_left]

end ComponentSurvey.Order
