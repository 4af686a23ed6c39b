/-!
# Values without repetition

Lists that hold each value once: in the order in which the values come, or sorted.
-/

namespace ComponentSurvey.Order

variable {α : Type}

def appendNew (same : α → α → Bool) (seen : List α) (value : α) : List α :=
  if seen.any (same value) then seen else seen ++ [value]

def distinctBy (same : α → α → Bool) (values : List α) : List α :=
  values.foldl (appendNew same) []

def distinct [BEq α] (values : List α) : List α :=
  distinctBy (fun first second => first == second) values

def insertText (text : String) : List String → List String
  | [] => [text]
  | next :: rest =>
    if text < next then text :: next :: rest
    else if text = next then next :: rest
    else next :: insertText text rest

/-- Different texts in the order of their characters. -/
def textSet (texts : List String) : List String := texts.foldr insertText []

theorem mem_insertText {x text : String} {texts : List String} :
    x ∈ insertText text texts ↔ x = text ∨ x ∈ texts := by
  induction texts with
  | nil => simp [insertText]
  | cons next rest ih =>
    simp only [insertText]
    split
    · simp
    · split
      · simp_all
      · simp only [List.mem_cons, ih]
        grind

theorem mem_textSet {x : String} {texts : List String} : x ∈ textSet texts ↔ x ∈ texts := by
  induction texts with
  | nil => simp [textSet]
  | cons text rest ih =>
    simp only [textSet, List.foldr_cons, mem_insertText, List.mem_cons]
    exact or_congr_right ih

def countText (text : String) : List (String × Nat) → List (String × Nat)
  | [] => [(text, 1)]
  | (next, count) :: rest =>
    if text < next then (text, 1) :: (next, count) :: rest
    else if text = next then (next, count + 1) :: rest
    else (next, count) :: countText text rest

def addTexts (texts added : List String) : List String :=
  added.foldl (fun texts text => insertText text texts) texts

def countTexts (counts : List (String × Nat)) (texts : List String) : List (String × Nat) :=
  texts.foldl (fun counts text => countText text counts) counts

end ComponentSurvey.Order
