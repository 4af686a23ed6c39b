import ComponentSurvey.Text.Scanner

/-!
# What scanners take

How a scanner fares on a text whose front it is known to take, for each way of putting scanners
together.
-/

namespace ComponentSurvey.Text.Scanner

variable {α β : Type} {scanner : Scanner α} {text rest : List Char} {value : α}

theorem bind_of_some {next : α → Scanner β} (taken : scanner text = some (value, rest)) :
    (scanner >>= next) text = next value rest := by
  change (scanner text).bind (fun found => next found.1 found.2) = _
  rw [taken]
  rfl

theorem bind_of_none {next : α → Scanner β} (refused : scanner text = none) :
    (scanner >>= next) text = none := by
  change (scanner text).bind (fun found => next found.1 found.2) = _
  rw [refused]
  rfl

theorem map_of_some {f : α → β} (taken : scanner text = some (value, rest)) :
    (f <$> scanner) text = some (f value, rest) := by
  change (scanner text).bind (fun found => some (f found.1, found.2)) = _
  rw [taken]
  rfl

theorem map_of_none {f : α → β} (refused : scanner text = none) :
    (f <$> scanner) text = none := by
  change (scanner text).bind (fun found => some (f found.1, found.2)) = _
  rw [refused]
  rfl

theorem optional?_of_some (taken : scanner text = some (value, rest)) :
    optional? scanner text = some (some value, rest) := by
  rw [optional?, taken]

theorem optional?_of_none (refused : scanner text = none) :
    optional? scanner text = some (none, text) := by
  rw [optional?, refused]

theorem firstOf_of_some {others : List (Scanner α)} (taken : scanner text = some (value, rest)) :
    firstOf (scanner :: others) text = some (value, rest) := by
  simp only [firstOf, taken]

theorem firstOf_of_none {others : List (Scanner α)} (refused : scanner text = none) :
    firstOf (scanner :: others) text = firstOf others text := by
  simp only [firstOf, refused]

theorem satisfy_cons {accepts : Char → Bool} {c : Char} (accepted : accepts c = true) :
    satisfy accepts (c :: rest) = some (c, rest) := by
  rw [satisfy, if_pos accepted]

def Stops (accepts : Char → Bool) (text : List Char) : Prop :=
  ∀ c ∈ text.head?, accepts c = false

@[simp] theorem stops_cons {accepts : Char → Bool} {c : Char} :
    Stops accepts (c :: rest) ↔ accepts c = false := by
  simp [Stops]

theorem Stops.mono {accepts fewer : Char → Bool} (stops : Stops accepts text)
    (within : ∀ c, fewer c = true → accepts c = true) : Stops fewer text := by
  intro c next
  have refused := stops c next
  cases accepted : fewer c with
  | false => rfl
  | true => rw [within c accepted] at refused; cases refused

theorem satisfy_of_stops {accepts : Char → Bool} (stops : Stops accepts text) :
    satisfy accepts text = none := by
  cases text with
  | nil => rfl
  | cons c rest => rw [satisfy, if_neg (by simp [stops_cons.mp stops])]

@[simp] theorem char_cons (c : Char) : char c (c :: rest) = some ((), rest) := by
  rw [char, bind_of_some (satisfy_cons (decide_eq_true rfl))]
  rfl

theorem char_of_stops {c : Char} (stops : Stops (fun d => d = c) text) : char c text = none :=
  bind_of_none (satisfy_of_stops stops)

theorem literal_of_stops {expected : String} {c : Char} {others text : List Char}
    (spelled : expected.toList = c :: others) (stops : Stops (fun d => d = c) text) :
    literal expected text = none := by
  cases text with
  | nil => rw [literal, spelled, if_neg (by simp)]
  | cons d rest =>
      have differ := of_decide_eq_false (stops_cons.mp stops)
      rw [literal, spelled, if_neg (by simp [Ne.symm differ])]

theorem run_append {accepts : Char → Bool} {front : List Char}
    (all : ∀ c ∈ front, accepts c = true) (stops : Stops accepts rest) :
    run accepts (front ++ rest) = some (front, rest) := by
  have none : rest.takeWhile accepts = [] ∧ rest.dropWhile accepts = rest := by
    cases rest with
    | nil => exact ⟨rfl, rfl⟩
    | cons c others => simp [stops_cons.mp stops]
  rw [run, List.takeWhile_append_of_pos all, List.dropWhile_append_of_pos all, none.1, none.2,
    List.append_nil]

theorem nonemptyRun_append {accepts : Char → Bool} {front : List Char} (nonempty : front ≠ [])
    (all : ∀ c ∈ front, accepts c = true) (stops : Stops accepts rest) :
    nonemptyRun accepts (front ++ rest) = some (front, rest) := by
  rw [nonemptyRun, bind_of_some (run_append all stops), if_neg (by rwa [List.isEmpty_iff])]
  rfl

theorem nonemptyRun_of_stops {accepts : Char → Bool} (stops : Stops accepts text) :
    nonemptyRun accepts text = none := by
  have none : ∀ c ∈ [], accepts c = true := by simp
  have taken : run accepts text = some ([], text) := run_append none stops
  rw [nonemptyRun, bind_of_some taken]
  rfl

/-- A text from which a scanner takes values one after the other until it refuses. -/
inductive TakesAll (scanner : Scanner α) : List Char → List α → List Char → Prop
  | stop {front : List Char} (refused : scanner front = none) : TakesAll scanner front [] front
  | next {front middle last : List Char} {first : α} {others : List α}
      (taken : scanner front = some (first, middle)) (shorter : middle.length < front.length)
      (later : TakesAll scanner middle others last) :
      TakesAll scanner front (first :: others) last

theorem repeated_of_takesAll {values : List α} {last : List Char}
    (takes : TakesAll scanner text values last) {fuel : Nat} (enough : text.length ≤ fuel) :
    repeated fuel scanner text = some (values, last) := by
  induction takes generalizing fuel with
  | stop refused =>
      cases fuel with
      | zero => rfl
      | succ fuel => simp only [repeated, refused]
  | next taken shorter _ ih =>
      cases fuel with
      | zero => omega
      | succ fuel =>
          simp only [repeated, taken]
          exact map_of_some (ih (by omega))

theorem many_of_takesAll {values : List α} {last : List Char}
    (takes : TakesAll scanner text values last) :
    many scanner text = some (values, last) :=
  repeated_of_takesAll takes (Nat.le_refl _)

end ComponentSurvey.Text.Scanner
