import ComponentSurvey.Proofs.Glob.Language
import ComponentSurvey.Proofs.Path.Relative

/-!
# Patterns and the segments of a path

A pattern behind two stars is tried where a segment of the path begins.  One that says nothing of
separators is matched by single segments only, so it finds the last one; one for a directory finds
any segment but the last one.
-/

namespace ComponentSurvey.Glob

variable {tokens : List Token} {text name : List Char}

def segments (text : List Char) : List (List Char) := Path.splitAt '/' text

theorem slash_notMem_of_mem_segments (listed : name ∈ segments text) : '/' ∉ name :=
  Path.slash_notMem_of_mem_splitAt listed

theorem segments_of_slash_notMem (single : '/' ∉ text) : segments text = [text] := by
  rw [segments, Path.splitAt_eq_splitOn, List.splitOn_eq_singleton single]

theorem segments_append (single : '/' ∉ name) (rest : List Char) :
    segments (name ++ '/' :: rest) = name :: segments rest := by
  rw [segments, Path.splitAt_append, ← segments, segments_of_slash_notMem single]
  rfl

theorem segments_cases (text : List Char) :
    '/' ∉ text ∧ segments text = [text] ∨
      ∃ name rest, text = name ++ '/' :: rest ∧ segments text = name :: segments rest := by
  by_cases slash : '/' ∈ text
  · obtain ⟨name, rest, rfl, single⟩ := List.eq_append_cons_of_mem slash
    exact .inr ⟨name, rest, rfl, segments_append single rest⟩
  · exact .inl ⟨slash, segments_of_slash_notMem slash⟩

theorem segments_ne_nil (text : List Char) : segments text ≠ [] := by
  rcases segments_cases text with ⟨-, whole⟩ | ⟨name, rest, -, whole⟩ <;> simp [whole]

theorem exists_last_segment (text : List Char) :
    ∃ name, (segments text).getLast? = some name ∧ '/' ∉ name := by
  have last := List.getLast_mem (segments_ne_nil text)
  exact ⟨_, List.getLast?_eq_some_getLast (segments_ne_nil text), slash_notMem_of_mem_segments last⟩

theorem exists_mem_segments {c : Char} (other : c ≠ '/') (member : c ∈ text) :
    ∃ segment ∈ segments text, c ∈ segment := by
  induction text with
  | nil => cases member
  | cons d rest ih =>
      obtain ⟨first, others, split⟩ := List.exists_cons_of_ne_nil (segments_ne_nil rest)
      rw [split] at ih
      unfold segments at split ⊢
      rw [Path.splitAt, split]
      rcases List.mem_cons.mp member with rfl | later
      · simp [other]
      · obtain ⟨segment, listed, within⟩ := ih later
        split
        · exact ⟨segment, List.mem_cons_of_mem _ listed, within⟩
        · rcases List.mem_cons.mp listed with rfl | further
          · exact ⟨_, List.mem_cons_self, List.mem_cons_of_mem _ within⟩
          · exact ⟨segment, List.mem_cons_of_mem _ further, within⟩

theorem path_segments (path : String) : Place.path (segments path.toList) = path := by
  rw [Place.path, segments, Path.splitAt_eq_splitOn, List.intercalate_splitOn, String.ofList_toList]

theorem Resumes.segments_suffix {back : List Char} (resumes : Resumes text back) :
    back = [] ∨ segments back <:+ segments text := by
  rcases resumes with rfl | rfl | ⟨front, rfl⟩
  · exact .inr (List.suffix_refl _)
  · exact .inl rfl
  · exact .inr ⟨segments front, (Path.splitAt_append front back).symm⟩

theorem exists_resumes {before after : List (List Char)} (split : segments text = before ++ after)
    (nonempty : after ≠ []) : ∃ back, Resumes text back ∧ segments back = after := by
  induction before generalizing text with
  | nil => exact ⟨text, .inl rfl, split⟩
  | cons first before ih =>
      rcases segments_cases text with ⟨-, whole⟩ | ⟨name, rest, rfl, whole⟩
      · simp [whole, nonempty] at split
      · rw [whole, List.cons_append, List.cons.injEq] at split
        obtain ⟨back, resumes, same⟩ := ih split.2
        have steps : Resumes (name ++ '/' :: rest) rest := .inr (.inr ⟨name, rfl⟩)
        exact ⟨back, steps.trans resumes, same⟩

def StaysInside (tokens : List Token) : Prop :=
  ∀ token ∈ tokens, token ≠ .anyParts ∧ token ≠ .char '/'

theorem StaysInside.slash_notMem (inside : StaysInside tokens) (found : Matches tokens text) :
    '/' ∉ text := by
  induction tokens generalizing text with
  | nil =>
      obtain rfl : text = [] := found
      exact List.not_mem_nil
  | cons token rest ih =>
      obtain ⟨⟨notParts, noSlash⟩, later⟩ := List.forall_mem_cons.mp inside
      cases token with
      | anySequence =>
          obtain ⟨front, back, rfl, within, matched⟩ := found
          simp [within, ih later matched]
      | anyParts => exact absurd rfl notParts
      | char d =>
          obtain ⟨c, following, rfl, accepts, matched⟩ := found
          obtain rfl : c = d := of_decide_eq_true accepts
          have other : '/' ≠ c := fun same => noSlash (same ▸ rfl)
          simp [other, ih later matched]
      | _ =>
          obtain ⟨c, following, rfl, accepts, matched⟩ := found
          have other : '/' ≠ c := by
            rintro rfl
            simp [Token.accepts, isSeparator] at accepts
          simp [other, ih later matched]

theorem StaysInside.matches_of_nil (inside : StaysInside tokens) (nonempty : tokens ≠ [])
    (found : Matches tokens []) (single : '/' ∉ name) : Matches tokens name := by
  cases tokens with
  | nil => exact absurd rfl nonempty
  | cons token rest =>
      have first := inside token List.mem_cons_self
      cases token with
      | anySequence =>
          obtain ⟨front, back, split, -, matched⟩ := found
          obtain ⟨rfl, rfl⟩ := List.append_eq_nil_iff.mp split.symm
          exact ⟨name, [], (List.append_nil _).symm, single, matched⟩
      | anyParts => exact absurd rfl first.1
      | _ =>
          obtain ⟨c, following, split, -⟩ := found
          cases split

theorem StaysInside.matches_anywhere_iff (inside : StaysInside tokens) (nonempty : tokens ≠ []) :
    Matches (.anyParts :: tokens) text ↔
      ∃ name, (segments text).getLast? = some name ∧ Matches tokens name := by
  constructor
  · rintro ⟨back, resumes, matched⟩
    have single := inside.slash_notMem matched
    rcases resumes.segments_suffix with rfl | suffix
    · obtain ⟨name, isLast, within⟩ := exists_last_segment text
      exact ⟨name, isLast, inside.matches_of_nil nonempty matched within⟩
    · rw [segments_of_slash_notMem single] at suffix
      obtain ⟨before, whole⟩ := suffix
      exact ⟨back, by rw [← whole, List.getLast?_concat], matched⟩
  · rintro ⟨name, isLast, matched⟩
    obtain ⟨before, whole⟩ := List.getLast?_eq_some_iff.mp isLast
    obtain ⟨back, resumes, same⟩ := exists_resumes whole (List.cons_ne_nil _ _)
    rcases segments_cases back with ⟨-, alone⟩ | ⟨first, rest, -, more⟩
    · rw [alone] at same
      obtain rfl : back = name := by simpa using same
      exact ⟨back, resumes, matched⟩
    · rw [more] at same
      exact absurd (List.cons.inj same).2 (segments_ne_nil rest)

theorem matches_letters_append {letters : List Char} :
    Matches (letters.map .char ++ tokens) text ↔
      ∃ rest, text = letters ++ rest ∧ Matches tokens rest := by
  induction letters generalizing text with
  | nil => simp
  | cons letter letters ih =>
      rw [List.map_cons, List.cons_append, matches_cons_of_single rfl]
      constructor
      · rintro ⟨c, following, rfl, accepts, matched⟩
        obtain rfl : c = letter := of_decide_eq_true accepts
        obtain ⟨rest, rfl, later⟩ := ih.mp matched
        exact ⟨rest, rfl, later⟩
      · rintro ⟨rest, rfl, matched⟩
        exact ⟨letter, letters ++ rest, rfl, decide_eq_true rfl, ih.mpr ⟨rest, rfl, matched⟩⟩

theorem staysInside_letters {letters : List Char} (single : '/' ∉ letters) :
    StaysInside (letters.map .char) := by
  intro token listed
  obtain ⟨letter, member, rfl⟩ := List.mem_map.mp listed
  refine ⟨nofun, fun slash => ?_⟩
  obtain rfl := Token.char.inj slash
  exact single member

theorem matches_ending_iff {ending : List Char} (single : '/' ∉ ending) :
    Matches (.anyParts :: .anySequence :: ending.map .char) text ↔
      ∃ name, (segments text).getLast? = some name ∧ ending <:+ name := by
  have inside : StaysInside (.anySequence :: ending.map .char) :=
    List.forall_mem_cons.mpr ⟨⟨nofun, nofun⟩, staysInside_letters single⟩
  rw [inside.matches_anywhere_iff (List.cons_ne_nil _ _)]
  refine exists_congr fun name => and_congr_right fun isLast => ?_
  have listed := slash_notMem_of_mem_segments (List.mem_of_getLast? isLast)
  have letters (back : List Char) : Matches (ending.map .char) back ↔ back = ending := by
    rw [← List.append_nil (ending.map Token.char), matches_letters_append]
    simp [Matches]
  constructor
  · rintro ⟨front, back, rfl, -, matched⟩
    obtain rfl := (letters back).mp matched
    exact List.suffix_append _ _
  · rintro ⟨front, rfl⟩
    exact ⟨front, ending, rfl, fun member => listed (List.mem_append_left _ member),
      (letters ending).mpr rfl⟩

theorem matches_directory_iff (single : '/' ∉ name) :
    Matches (.anyParts :: (name.map .char ++ [.char '/', .anyParts])) text ↔
      name ∈ (segments text).dropLast := by
  have anything (rest : List Char) : Matches [.char '/', .anyParts] ('/' :: rest) :=
    ⟨'/', rest, rfl, rfl, [], .inr (.inl rfl), rfl⟩
  constructor
  · rintro ⟨back, resumes, matched⟩
    obtain ⟨rest, rfl, c, following, rfl, accepts, -⟩ := matches_letters_append.mp matched
    obtain rfl : c = '/' := of_decide_eq_true accepts
    rcases resumes.segments_suffix with nothing | ⟨before, whole⟩
    · simp at nothing
    · rw [← whole, segments_append single, List.dropLast_append_of_ne_nil (List.cons_ne_nil _ _),
        List.dropLast_cons_of_ne_nil (segments_ne_nil _)]
      simp
  · intro listed
    obtain ⟨before, more, whole⟩ := List.append_of_mem listed
    have split : segments text =
        before ++ name :: (more ++ [(segments text).getLast (segments_ne_nil text)]) := by
      conv_lhs => rw [← List.dropLast_append_getLast (segments_ne_nil text), whole]
      simp
    obtain ⟨back, resumes, same⟩ := exists_resumes split (List.cons_ne_nil _ _)
    rcases segments_cases back with ⟨-, alone⟩ | ⟨first, rest, rfl, begins⟩
    · simp [alone] at same
    · rw [begins] at same
      obtain ⟨rfl, -⟩ := List.cons.inj same
      exact ⟨_, resumes, matches_letters_append.mpr ⟨_, rfl, anything rest⟩⟩

end ComponentSurvey.Glob
