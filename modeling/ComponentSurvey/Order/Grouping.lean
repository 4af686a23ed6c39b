/-!
# Groups

What belongs together is added up in one group, and the groups come in the order in which their
first members do.
-/

namespace ComponentSurvey.Order

variable {γ : Type}

/-- Adds to the first group that passes a test, or else to a fresh group at the end. -/
def addToGroup (isIts : γ → Bool) (fresh : γ) (add : γ → γ) : List γ → List γ
  | [] => [add fresh]
  | group :: rest =>
    if isIts group then add group :: rest else group :: addToGroup isIts fresh add rest

end ComponentSurvey.Order
