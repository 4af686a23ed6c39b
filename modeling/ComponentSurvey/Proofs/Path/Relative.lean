import ComponentSurvey.Files.Tree
import ComponentSurvey.Path.Basic
import Mathlib.Data.List.Basic

/-!
# Paths that are spelled plainly

The path of a place is its names between slashes, so that the place can be read off it again.  Such
a path, put behind a directory, is what is seen of it from that directory.
-/

namespace ComponentSurvey

structure Path.IsName (text : List Char) : Prop where
  isPart : innerPart? text = some (.name text)
  noSlash : '/' ∉ text

structure Place.IsPlain (place : Place) : Prop where
  nonempty : place ≠ []
  named : ∀ name ∈ place, Path.IsName name

instance (text : List Char) : Decidable (Path.IsName text) :=
  decidable_of_iff (Path.innerPart? text = some (.name text) ∧ '/' ∉ text)
    ⟨fun both => ⟨both.1, both.2⟩, fun name => ⟨name.isPart, name.noSlash⟩⟩

instance (place : Place) : Decidable place.IsPlain :=
  decidable_of_iff (place ≠ [] ∧ ∀ name ∈ place, Path.IsName name)
    ⟨fun both => ⟨both.1, both.2⟩, fun plain => ⟨plain.nonempty, plain.named⟩⟩

namespace Path

theorem IsName.ne_nil {text : List Char} (name : IsName text) : text ≠ [] := by
  rintro rfl
  cases name.isPart

theorem IsName.ne_here {text : List Char} (name : IsName text) : text ≠ ['.'] := by
  rintro rfl
  cases name.isPart

theorem IsName.ne_up {text : List Char} (name : IsName text) : text ≠ ['.', '.'] := by
  rintro rfl
  cases name.isPart

theorem splitAt_eq_splitOn (separator : Char) (text : List Char) :
    splitAt separator text = text.splitOn separator := by
  induction text with
  | nil => rfl
  | cons c rest ih =>
      rw [splitAt, ih, List.splitOn_cons_eq_if_modifyHead]
      simp only [beq_iff_eq]
      split
      · rfl
      · obtain ⟨first, others, parts⟩ :=
          List.exists_cons_of_ne_nil (List.splitOn_ne_nil separator rest)
        rw [parts, List.modifyHead_cons]

theorem slash_notMem_of_mem_splitAt {text part : List Char} (listed : part ∈ splitAt '/' text) :
    '/' ∉ part := by
  induction text generalizing part with
  | nil =>
      obtain rfl := List.mem_singleton.mp listed
      exact List.not_mem_nil
  | cons c rest ih =>
      rw [splitAt] at listed
      split at listed
      · rcases List.mem_cons.mp listed with rfl | later
        · exact List.not_mem_nil
        · exact ih later
      · rename_i other
        cases split : splitAt '/' rest with
        | nil =>
            rw [split] at listed
            obtain rfl := List.mem_singleton.mp listed
            simpa using fun same => other same.symm
        | cons first others =>
            rw [split] at listed ih
            rcases List.mem_cons.mp listed with rfl | later
            · have inFirst := ih List.mem_cons_self
              simpa [inFirst] using fun same => other same.symm
            · exact ih (List.mem_cons_of_mem _ later)

theorem splitAt_append (front back : List Char) :
    splitAt '/' (front ++ '/' :: back) = splitAt '/' front ++ splitAt '/' back := by
  simp only [splitAt_eq_splitOn, List.splitOn_append_cons_self]

variable {place : Place}

theorem splitAt_path (plain : place.IsPlain) : splitAt '/' place.path.toList = place := by
  rw [splitAt_eq_splitOn, Place.path, String.toList_ofList]
  exact List.splitOn_intercalate '/' (fun name member => (plain.named name member).noSlash)
    plain.nonempty

theorem path_ne_slash_cons (plain : place.IsPlain) (rest : List Char) :
    place.path.toList ≠ '/' :: rest := by
  intro slash
  have parts := splitAt_path plain
  rw [slash, splitAt, if_pos rfl] at parts
  have named := plain.named [] (parts ▸ List.mem_cons_self)
  exact named.ne_nil rfl

theorem map_innerPiece (plain : place.IsPlain) :
    place.map innerPiece = place.map fun name => (name, some (.name name)) :=
  List.map_congr_left fun name member =>
    congrArg (Prod.mk name) (plain.named name member).isPart

theorem pieces_path (plain : place.IsPlain) :
    pieces place.path.toList = place.map fun name => (name, some (.name name)) := by
  rw [pieces, splitAt_path plain]
  · split
    · exact absurd rfl (plain.named _ List.mem_cons_self).ne_here
    · exact map_innerPiece plain
  · exact path_ne_slash_cons plain

theorem parts_path (plain : place.IsPlain) : parts place.path = place.map .name := by
  rw [parts, partsOf, pieces_path plain, List.filterMap_map]
  exact congrFun List.filterMap_eq_map place

theorem isSame_path_iff {other : Place} (plain : place.IsPlain) (otherPlain : other.IsPlain) :
    isSame place.path other.path = true ↔ place = other := by
  rw [isSame, decide_eq_true_eq, parts_path plain, parts_path otherPlain]
  exact (List.map_injective_iff.mpr fun _ _ => Part.name.inj).eq_iff

theorem toList_join {directory : String} (nonempty : directory ≠ "") (plain : place.IsPlain) :
    (join directory place.path).toList =
      if directory.toList.getLast? = some '/' then directory.toList ++ place.path.toList
      else directory.toList ++ '/' :: place.path.toList := by
  have relative : place.path.startsWith "/" = false := by
    rw [String.startsWith_string_eq_false_iff]
    rintro ⟨rest, slash⟩
    exact path_ne_slash_cons plain rest slash.symm
  have isEmpty : directory.isEmpty = false := by simpa using nonempty
  have ends : directory.endsWith "/" = decide (directory.toList.getLast? = some '/') := by
    rw [Bool.eq_iff_iff, ← String.endsWith_toSlice, String.Slice.endsWith_string_iff,
      String.copy_toSlice, decide_eq_true_eq, List.getLast?_eq_some_iff]
    exact exists_congr fun _ => eq_comm
  rw [join, relative, isEmpty, ends]
  simp only [Bool.or_self, Bool.false_eq_true, if_false, decide_eq_true_eq]
  split
  · exact String.toList_append
  · simp

/-- A text with a file put behind it, where a slash has stood before the text. -/
def continued (body file : List Char) : List Char :=
  if ('/' :: body).getLast? = some '/' then body ++ file else body ++ '/' :: file

theorem toList_join_of_eq {directory : String} {before body : List Char}
    (split : directory.toList = before ++ '/' :: body) (plain : place.IsPlain) :
    (join directory place.path).toList = before ++ '/' :: continued body place.path.toList := by
  have nonempty : directory ≠ "" := by
    rintro rfl
    simp at split
  rw [toList_join nonempty plain, split, continued,
    List.getLast?_append_of_ne_nil before (List.cons_ne_nil _ _)]
  split <;> simp

/-- At most the empty text behind the last slash is lost. -/
theorem splitAt_continued (body : List Char) (plain : place.IsPlain) :
    ∃ front blanks, splitAt '/' body = front ++ blanks ∧ (blanks = [] ∨ blanks = [[]]) ∧
      splitAt '/' (continued body place.path.toList) = front ++ place := by
  rw [continued]
  split
  · rename_i ends
    cases body with
    | nil => exact ⟨[], [[]], rfl, .inr rfl, splitAt_path plain⟩
    | cons c rest =>
        rw [List.getLast?_cons_cons] at ends
        obtain ⟨before, split⟩ := List.getLast?_eq_some_iff.mp ends
        rw [split, List.append_assoc]
        refine ⟨splitAt '/' before, [[]], splitAt_append before [], .inr rfl, ?_⟩
        rw [List.singleton_append, splitAt_append, splitAt_path plain]
  · refine ⟨splitAt '/' body, [], (List.append_nil _).symm, .inl rfl, ?_⟩
    rw [splitAt_append, splitAt_path plain]

theorem behind?_append (front more : List Piece) :
    ∃ rest, (∀ piece ∈ rest, counts piece = false) ∧
      behind? (front.filterMap Prod.snd) (front ++ more) = some (rest ++ more) := by
  induction front with
  | nil => exact ⟨[], by simp, by simp [behind?]⟩
  | cons piece front ih =>
      obtain ⟨text, part?⟩ := piece
      cases part? with
      | some part => simpa [behind?] using ih
      | none =>
          rw [List.filterMap_cons_none rfl]
          cases parts : front.filterMap Prod.snd with
          | cons part others => simpa [behind?, parts] using ih
          | nil =>
              refine ⟨(text, none) :: front, ?_, rfl⟩
              rw [List.filterMap_eq_nil_iff] at parts
              simpa [counts] using parts

theorem trimmed_append {front pieces : List Piece}
    (passedOver : ∀ piece ∈ front, counts piece = false)
    (kept : ∀ piece ∈ pieces, counts piece = true) : trimmed (front ++ pieces) = pieces := by
  have dropWhile_kept : ∀ pieces : List Piece, (∀ piece ∈ pieces, counts piece = true) →
      (pieces.dropWhile fun piece => !counts piece) = pieces := by
    intro pieces kept
    cases pieces with
    | nil => rfl
    | cons piece rest => rw [List.dropWhile_cons_of_neg (by simp [kept])]
  rw [trimmed, List.dropWhile_append_of_pos (by simpa using passedOver), dropWhile_kept _ kept,
    dropWhile_kept _ (by simpa using kept), List.reverse_reverse]

variable {directory : String} {body : List Char}

theorem pieces_absolute (body : List Char) :
    pieces ('/' :: body) = ([], some .root) :: (splitAt '/' body).map innerPiece := rfl

/-- A path behind an absolute directory is seen from there as it is. -/
theorem relativeTo?_join (absolute : directory.toList = '/' :: body) (plain : place.IsPlain) :
    relativeTo? directory (join directory place.path) = some place.path := by
  obtain ⟨front, blanks, within, blank, together⟩ := splitAt_continued body plain
  have directoryParts : parts directory =
      (([], some Part.root) :: front.map innerPiece).filterMap Prod.snd := by
    rw [parts, partsOf, absolute, pieces_absolute, within]
    rcases blank with rfl | rfl <;> simp [innerPiece, innerPart?]
  have joined : (join directory place.path).toList =
      [] ++ '/' :: continued body place.path.toList := toList_join_of_eq absolute plain
  have joinedPieces : pieces (join directory place.path).toList =
      (([], some Part.root) :: front.map innerPiece) ++
        place.map fun name => (name, some (Part.name name)) := by
    rw [joined, List.nil_append, pieces_absolute,
      together, List.map_append, map_innerPiece plain, List.cons_append]
  obtain ⟨rest, passedOver, left⟩ := behind?_append
    (([], some Part.root) :: front.map innerPiece)
    (place.map fun name => (name, some (Part.name name)))
  rw [relativeTo?, directoryParts, joinedPieces, left, Option.map_some,
    trimmed_append passedOver (by simp [counts]), textOf, List.map_map]
  exact congrArg (fun names => some (Place.path names)) (List.map_id _)

/-- What is seen from an absolute directory is not seen through it once more. -/
theorem relativeTo?_path (absolute : directory.toList = '/' :: body) (plain : place.IsPlain) :
    relativeTo? directory place.path = none := by
  obtain ⟨name, others, rfl⟩ := List.exists_cons_of_ne_nil plain.nonempty
  rw [relativeTo?, parts, partsOf, absolute, pieces_absolute, pieces_path plain]
  rfl

end Path

end ComponentSurvey
