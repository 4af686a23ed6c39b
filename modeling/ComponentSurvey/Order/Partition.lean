/-!
# Places in a list

`partitionPoint` finds by halving how many values at the front of a list satisfy a test, if the
test holds of a front part and of nothing after it.  Of any other list it gives some place.
-/

namespace ComponentSurvey.Order

variable {α : Type}

/-- Halves the `size` places from `base` on. -/
def narrow (test : α → Bool) (values : List α) : Nat → Nat → Nat → Nat
  | 0, base, _ => base
  | fuel + 1, base, size =>
    if size ≤ 1 then base
    else
      let middle := base + size / 2
      narrow test values fuel (if values[middle]?.any test then middle else base)
        (size - size / 2)

def partitionPoint (test : α → Bool) (values : List α) : Nat :=
  let base := narrow test values values.length 0 values.length
  if values[base]?.any test then base + 1 else base

def insertAt (values : List α) (place : Nat) (added : List α) : List α :=
  values.take place ++ added ++ values.drop place

end ComponentSurvey.Order
