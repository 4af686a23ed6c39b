/-!
# Totals

The sum of what a measure gives for the values of a list.
-/

namespace ComponentSurvey.Order

variable {α : Type}

def total (measure : α → Nat) : List α → Nat
  | [] => 0
  | value :: rest => measure value + total measure rest

@[simp] theorem total_nil (measure : α → Nat) : total measure [] = 0 := rfl

@[simp] theorem total_cons (measure : α → Nat) (value : α) (rest : List α) :
    total measure (value :: rest) = measure value + total measure rest := rfl

@[simp] theorem total_append (measure : α → Nat) (first second : List α) :
    total measure (first ++ second) = total measure first + total measure second := by
  induction first with
  | nil => simp
  | cons value rest ih => simp [ih, Nat.add_assoc]

end ComponentSurvey.Order
