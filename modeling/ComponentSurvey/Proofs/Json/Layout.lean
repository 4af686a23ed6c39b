import ComponentSurvey.Json.Printer

/-!
# How written values are laid out

The writer works on lines and indents those that it has already written.  Read as one text, the
lines of a value are the same wherever the value stands, but for the blanks after each line end.
-/

namespace ComponentSurvey.Json

def gap (margin : Nat) : List Char := '\n' :: List.replicate margin ' '

def joined (margin : Nat) (lines : List String) : List Char :=
  (gap margin).intercalate (lines.map String.toList)

theorem toList_pretty (json : Json) : json.pretty.toList = joined 0 json.lines := by
  rw [pretty, String.toList_intercalate]
  rfl

variable {margin : Nat}

@[simp] theorem joined_singleton (line : String) : joined margin [line] = line.toList := by
  simp [joined]

theorem joined_cons (first : String) {others : List String} (more : others ≠ []) :
    joined margin (first :: others) = first.toList ++ gap margin ++ joined margin others := by
  obtain ⟨second, rest, rfl⟩ := List.exists_cons_of_ne_nil more
  exact List.intercalate_cons_cons

theorem joined_append {first second : List String} (some : first ≠ []) (more : second ≠ []) :
    joined margin (first ++ second) =
      joined margin first ++ gap margin ++ joined margin second := by
  induction first with
  | nil => exact absurd rfl some
  | cons line rest ih =>
      cases rest with
      | nil => simpa using joined_cons line more
      | cons next rest =>
          rw [List.cons_append, joined_cons line (by simp), ih (by simp),
            joined_cons line (by simp)]
          simp only [List.append_assoc]

theorem gap_indented : gap margin ++ [' ', ' '] = gap (margin + 2) := by
  simp [gap, List.replicate_succ']

theorem joined_indented {lines : List String} (some : lines ≠ []) :
    joined margin (indented lines) = [' ', ' '] ++ joined (margin + 2) lines := by
  induction lines with
  | nil => exact absurd rfl some
  | cons line rest ih =>
      cases rest with
      | nil => simp [indented]
      | cons next rest =>
          have later := ih (by simp)
          rw [indented, List.map_cons, joined_cons _ (by simp), joined_cons line (by simp),
            ← indented, later, ← gap_indented]
          simp

theorem joined_withStart (start : String) {lines : List String} (some : lines ≠ []) :
    joined margin (withStart start lines) = start.toList ++ joined margin lines := by
  obtain ⟨line, rest, rfl⟩ := List.exists_cons_of_ne_nil some
  cases rest with
  | nil => simp [withStart]
  | cons next rest =>
      rw [withStart, joined_cons (start ++ line) (by simp), joined_cons line (by simp)]
      simp

theorem withEnd_ne_nil (stop : String) (lines : List String) : withEnd stop lines ≠ [] := by
  cases lines with
  | nil => simp [withEnd]
  | cons line rest => cases rest <;> simp [withEnd]

theorem joined_withEnd (stop : String) {lines : List String} (some : lines ≠ []) :
    joined margin (withEnd stop lines) = joined margin lines ++ stop.toList := by
  induction lines with
  | nil => exact absurd rfl some
  | cons line rest ih =>
      cases rest with
      | nil => simp [withEnd]
      | cons next rest =>
          rw [withEnd, joined_cons line (withEnd_ne_nil _ _), ih (by simp),
            joined_cons line (by simp)]
          · simp only [List.append_assoc]
          · simp

def furtherItems (margin : Nat) (items : List (List Char)) : List Char :=
  items.flatMap fun item => ',' :: gap margin ++ item

theorem withCommas_ne_nil {group : List String} (some : group ≠ []) (others : List (List String)) :
    withCommas (group :: others) ≠ [] := by
  cases others with
  | nil => simpa [withCommas]
  | cons next rest => simp [withCommas, withEnd_ne_nil]

theorem joined_withCommas (group : List String) (others : List (List String))
    (some : ∀ lines ∈ group :: others, lines ≠ []) :
    joined margin (withCommas (group :: others)) =
      joined margin group ++ furtherItems margin (others.map (joined margin)) := by
  induction others generalizing group with
  | nil => simp [withCommas, furtherItems]
  | cons next rest ih =>
      obtain ⟨groupSome, restSome⟩ := List.forall_mem_cons.mp some
      have later := ih next restSome
      rw [withCommas, joined_append (withEnd_ne_nil _ _)
        (withCommas_ne_nil (restSome next (by simp)) rest), joined_withEnd _ groupSome, later]
      · simp [furtherItems]
      · simp

/-- Items between two marks, each on a line of its own. -/
def enclosedText (margin : Nat) (first last : Char) : List (List Char) → List Char
  | [] => [first, last]
  | item :: others =>
    first :: gap (margin + 2) ++ item ++ furtherItems (margin + 2) others ++ gap margin ++ [last]

theorem exists_enclosedText (margin : Nat) (first last : Char) (items : List (List Char)) :
    ∃ others, enclosedText margin first last items = first :: others := by
  cases items <;> exact ⟨_, rfl⟩

theorem joined_enclosedLines (margin : Nat) (first last : Char) {groups : List (List String)}
    (some : ∀ lines ∈ groups, lines ≠ []) :
    joined margin (enclosedLines (String.singleton first) (String.singleton last) groups) =
      enclosedText margin first last (groups.map (joined (margin + 2))) := by
  cases groups with
  | nil => simp [enclosedLines, enclosedText]
  | cons group others =>
      have inner := withCommas_ne_nil (some group (by simp)) others
      have indentedSome : indented (withCommas (group :: others)) ≠ [] := by
        simpa [indented] using inner
      rw [enclosedLines, if_neg (by simp), List.append_assoc, List.singleton_append,
        joined_cons _ (by simp), joined_append indentedSome (by simp), joined_indented inner,
        joined_withCommas group others some]
      simp [enclosedText, ← gap_indented]

end ComponentSurvey.Json
