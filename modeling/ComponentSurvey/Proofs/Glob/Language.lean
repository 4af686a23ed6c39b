import ComponentSurvey.Glob.Matching
import Mathlib.Data.List.Basic

/-!
# What patterns match

The texts that a list of tokens matches, said without a search.  The search gives up for good where
the text runs out before the tokens do.  Nothing is lost by that, because no rest of the text at
which the search could go on is matched either.  For two stars these are the rests where a part of a
path begins, so two stars must stand where a part may begin.
-/

namespace ComponentSurvey.Glob

/-! ## Rests of a text -/

/-- The rest stands behind a separator or is the end. -/
def Continues (text rest : List Char) : Prop := rest = [] ∨ ∃ front, text = front ++ '/' :: rest

/-- The rest is the whole text or stands where two stars may end. -/
def Resumes (text rest : List Char) : Prop := rest = text ∨ Continues text rest

theorem continues_nil {rest : List Char} : Continues [] rest ↔ rest = [] := by
  simp [Continues]

theorem continues_cons {c : Char} {text rest : List Char} :
    Continues (c :: text) rest ↔ c = '/' ∧ rest = text ∨ Continues text rest := by
  unfold Continues
  constructor
  · rintro (rfl | ⟨front, split⟩)
    · exact .inr (.inl rfl)
    · cases front with
      | nil =>
          obtain ⟨rfl, rfl⟩ := List.cons.inj split
          exact .inl ⟨rfl, rfl⟩
      | cons d front =>
          obtain ⟨rfl, rfl⟩ := List.cons.inj split
          exact .inr (.inr ⟨front, rfl⟩)
  · rintro (⟨rfl, rfl⟩ | rfl | ⟨front, rfl⟩)
    · exact .inr ⟨[], rfl⟩
    · exact .inl rfl
    · exact .inr ⟨c :: front, rfl⟩

theorem Continues.suffix {text rest : List Char} (continues : Continues text rest) :
    rest <:+ text := by
  rcases continues with rfl | ⟨front, rfl⟩
  · exact List.nil_suffix
  · exact ⟨front ++ ['/'], by simp⟩

theorem Resumes.suffix {text rest : List Char} (resumes : Resumes text rest) : rest <:+ text := by
  rcases resumes with rfl | continues
  · exact List.suffix_refl _
  · exact continues.suffix

theorem Resumes.trans {text rest last : List Char} (first : Resumes text rest)
    (second : Resumes rest last) : Resumes text last := by
  rcases second with rfl | rfl | ⟨front, rfl⟩
  · exact first
  · exact .inr (.inl rfl)
  · obtain ⟨before, rfl⟩ := first.suffix
    exact .inr (.inr ⟨before ++ front, by simp⟩)

/-! ## Matches -/

def Matches : List Token → List Char → Prop
  | [], text => text = []
  | .anySequence :: rest, text =>
    ∃ front back, text = front ++ back ∧ '/' ∉ front ∧ Matches rest back
  | .anyParts :: rest, text => ∃ back, Resumes text back ∧ Matches rest back
  | token :: rest, text =>
    ∃ c following, text = c :: following ∧ token.accepts c = true ∧ Matches rest following

def Token.isSingle : Token → Bool
  | anySequence | anyParts => false
  | _ => true

section Single

variable {token : Token} {rest : List Token} (single : token.isSingle = true)
include single

theorem matches_cons_of_single {text : List Char} :
    Matches (token :: rest) text ↔
      ∃ c following, text = c :: following ∧ token.accepts c = true ∧ Matches rest following := by
  cases token <;> first | rfl | cases single

theorem matchTokens_nil_of_single : matchTokens (token :: rest) [] = .exhausted := by
  cases token <;> first | rfl | cases single

theorem matchTokens_cons_of_single {c : Char} {text : List Char} :
    matchTokens (token :: rest) (c :: text) =
      if token.accepts c then matchTokens rest text else .mismatch := by
  cases token <;> first | rfl | cases single

end Single

/-! ## The search finds matches only -/

/-- What a star takes has no separator, and something that the rest of the pattern matches follows
it. -/
theorem exists_of_spread {next : List Char → MatchResult} {text : List Char}
    (found : spread next text = .matched) :
    ∃ front back, text = front ++ back ∧ '/' ∉ front ∧ next back = .matched := by
  induction text with
  | nil => exact ⟨[], [], rfl, List.not_mem_nil, found⟩
  | cons c text ih =>
      rw [spread] at found
      split at found
      · split at found
        · cases found
        · rename_i noSeparator
          obtain ⟨front, back, rfl, within, matched⟩ := ih found
          have other : '/' ≠ c := fun same => noSeparator (decide_eq_true same.symm)
          exact ⟨c :: front, back, rfl, by simp [other, within], matched⟩
      · exact ⟨[], c :: text, rfl, List.not_mem_nil, found⟩

theorem exists_of_spreadParts {next : List Char → MatchResult} {text : List Char}
    (found : spreadParts next text = .matched) :
    ∃ back, Continues text back ∧ next back = .matched := by
  induction text with
  | nil => exact ⟨[], .inl rfl, found⟩
  | cons c text ih =>
      have later (found : spreadParts next text = .matched) :
          ∃ back, Continues (c :: text) back ∧ next back = .matched := by
        obtain ⟨back, continues, matched⟩ := ih found
        exact ⟨back, continues_cons.mpr (.inr continues), matched⟩
      rw [spreadParts] at found
      split at found
      · rename_i separator
        split at found
        · exact later found
        · exact ⟨text, continues_cons.mpr (.inl ⟨of_decide_eq_true separator, rfl⟩), found⟩
      · exact later found

theorem exists_of_matchTokens_anyParts {tokens : List Token} {text : List Char}
    (found : matchTokens (.anyParts :: tokens) text = .matched) :
    ∃ back, Resumes text back ∧ matchTokens tokens back = .matched := by
  rw [matchTokens] at found
  split at found
  · obtain ⟨back, continues, matched⟩ := exists_of_spreadParts found
    exact ⟨back, .inr continues, matched⟩
  · exact ⟨text, .inl rfl, found⟩

theorem exists_cons_of_matchTokens {token : Token} {rest : List Token} {text : List Char}
    (single : token.isSingle = true) (found : matchTokens (token :: rest) text = .matched) :
    ∃ c following, text = c :: following ∧ token.accepts c = true ∧
      matchTokens rest following = .matched := by
  cases text with
  | nil =>
      rw [matchTokens_nil_of_single single] at found
      cases found
  | cons c following =>
      rw [matchTokens_cons_of_single single] at found
      split at found
      · rename_i accepts
        exact ⟨c, following, rfl, accepts, found⟩
      · cases found

theorem matches_of_matchTokens {tokens : List Token} {text : List Char}
    (found : matchTokens tokens text = .matched) : Matches tokens text := by
  induction tokens generalizing text with
  | nil =>
      cases text with
      | nil => rfl
      | cons c text => cases found
  | cons token rest ih =>
      cases token with
      | anySequence =>
          obtain ⟨front, back, split, within, matched⟩ := exists_of_spread found
          exact ⟨front, back, split, within, ih matched⟩
      | anyParts =>
          obtain ⟨back, resumes, matched⟩ := exists_of_matchTokens_anyParts found
          exact ⟨back, resumes, ih matched⟩
      | _ =>
          obtain ⟨c, following, split, accepts, matched⟩ := exists_cons_of_matchTokens rfl found
          exact ⟨c, following, split, accepts, ih matched⟩

/-! ## Giving up early -/

section Spread

variable {next : List Char → MatchResult} {text back : List Char}

theorem not_matched_of_spread_exhausted
    (settles : ∀ text rest, next text = .exhausted → rest <:+ text → next rest ≠ .matched)
    (exhausted : spread next text = .exhausted) (suffix : back <:+ text) :
    next back ≠ .matched := by
  induction text with
  | nil =>
      rw [List.suffix_nil.mp suffix]
      intro matched
      rw [spread, matched] at exhausted
      cases exhausted
  | cons c text ih =>
      rw [spread] at exhausted
      split at exhausted
      · rename_i mismatch
        split at exhausted
        · cases exhausted
        · rcases List.suffix_cons_iff.mp suffix with rfl | later
          · simp [mismatch]
          · exact ih exhausted later
      · exact settles _ _ exhausted suffix

theorem spread_eq_matched
    (settles : ∀ text rest, next text = .exhausted → rest <:+ text → next rest ≠ .matched)
    {front : List Char} (within : '/' ∉ front) (matched : next back = .matched) :
    spread next (front ++ back) = .matched := by
  induction front with
  | nil =>
      cases back with
      | nil => exact matched
      | cons c back => simp [spread, matched]
  | cons c front ih =>
      obtain ⟨other, later⟩ := not_or.mp (mt List.mem_cons.mpr within)
      have noSeparator : isSeparator c = false := decide_eq_false fun same => other same.symm
      rw [List.cons_append, spread]
      cases here : next (c :: (front ++ back)) with
      | matched => rfl
      | mismatch => simpa [noSeparator] using ih later
      | exhausted =>
          exact absurd matched (settles _ _ here ⟨c :: front, rfl⟩)

theorem not_matched_of_spreadParts_exhausted
    (settles : ∀ text rest, next text = .exhausted → Resumes text rest → next rest ≠ .matched)
    (exhausted : spreadParts next text = .exhausted) (continues : Continues text back) :
    next back ≠ .matched := by
  induction text with
  | nil =>
      rw [continues_nil.mp continues]
      intro matched
      rw [spreadParts, matched] at exhausted
      cases exhausted
  | cons c text ih =>
      rw [spreadParts] at exhausted
      rw [continues_cons] at continues
      split at exhausted
      · split at exhausted
        · rename_i mismatch
          rcases continues with ⟨-, rfl⟩ | continues
          · simp [mismatch]
          · exact ih exhausted continues
        · exact settles _ _ exhausted (continues.imp_left And.right)
      · rename_i noSeparator
        rcases continues with ⟨rfl, -⟩ | continues
        · exact absurd rfl noSeparator
        · exact ih exhausted continues

theorem spreadParts_eq_matched
    (settles : ∀ text rest, next text = .exhausted → Resumes text rest → next rest ≠ .matched)
    (continues : Continues text back) (matched : next back = .matched) :
    spreadParts next text = .matched := by
  induction text with
  | nil =>
      rw [continues_nil.mp continues] at matched
      exact matched
  | cons c text ih =>
      rw [continues_cons] at continues
      rw [spreadParts]
      split
      · cases here : next text with
        | matched => rfl
        | mismatch =>
            rcases continues with ⟨-, rfl⟩ | continues
            · rw [here] at matched
              cases matched
            · exact ih continues
        | exhausted =>
            exact absurd matched (settles _ _ here (continues.imp_left And.right))
      · rename_i noSeparator
        rcases continues with ⟨rfl, -⟩ | continues
        · exact absurd rfl noSeparator
        · exact ih continues

end Spread

theorem not_matched_of_single_exhausted {token : Token} {rest : List Token}
    (single : token.isSingle = true) {text back : List Char}
    (settles : ∀ text behind, matchTokens rest text = .exhausted → behind <:+ text →
      (token = .char '/' → Resumes text behind) → matchTokens rest behind ≠ .matched)
    (exhausted : matchTokens (token :: rest) text = .exhausted) (suffix : back <:+ text) :
    matchTokens (token :: rest) back ≠ .matched := by
  intro found
  obtain ⟨d, behind, rfl, accepts, matched⟩ := exists_cons_of_matchTokens single found
  cases text with
  | nil => cases List.suffix_nil.mp suffix
  | cons c following =>
      rw [matchTokens_cons_of_single single] at exhausted
      split at exhausted
      · rcases List.suffix_cons_iff.mp suffix with same | later
        · obtain ⟨rfl, rfl⟩ := List.cons.inj same
          exact settles _ _ exhausted (List.suffix_refl _) (fun _ => .inl rfl) matched
        · refine settles _ _ exhausted ((List.suffix_cons d behind).trans later) ?_ matched
          rintro rfl
          obtain rfl : d = '/' := of_decide_eq_true accepts
          obtain ⟨front, rfl⟩ := later
          exact .inr (.inr ⟨front, rfl⟩)
      · cases exhausted

/-! ## The search misses no match -/

/-- Whether two stars stand only where a part may begin: behind a separator, behind two other stars
or, if told so, in front. -/
def isPlaced : Bool → List Token → Bool
  | _, [] => true
  | begins, .anyParts :: rest => begins && isPlaced true rest
  | _, token :: rest => isPlaced (token = .char '/') rest

theorem isPlaced_cons_of_single {begins : Bool} {token : Token} {rest : List Token}
    (single : token.isSingle = true) :
    isPlaced begins (token :: rest) = isPlaced (token = .char '/') rest := by
  cases token <;> first | rfl | cases single

/-- Where the text runs out, no rest of it is matched either at which the search could go on. -/
theorem not_matched_of_exhausted {tokens : List Token} {begins : Bool}
    (placed : isPlaced begins tokens = true) {text rest : List Char}
    (exhausted : matchTokens tokens text = .exhausted) (suffix : rest <:+ text)
    (resumes : begins = true → Resumes text rest) : matchTokens tokens rest ≠ .matched := by
  induction tokens generalizing begins text rest with
  | nil =>
      rw [matchTokens] at exhausted
      split at exhausted <;> cases exhausted
  | cons token tokens ih =>
      cases token with
      | anySequence =>
          intro found
          obtain ⟨front, back, rfl, -, matched⟩ := exists_of_spread found
          have settles : ∀ text rest, matchTokens tokens text = .exhausted → rest <:+ text →
              matchTokens tokens rest ≠ .matched :=
            fun _ _ ended behind => ih placed ended behind nofun
          exact not_matched_of_spread_exhausted settles exhausted
            ((List.suffix_append front back).trans suffix) matched
      | anyParts =>
          rw [isPlaced, Bool.and_eq_true] at placed
          obtain ⟨rfl, placed⟩ := placed
          intro found
          obtain ⟨back, later, matched⟩ := exists_of_matchTokens_anyParts found
          have behind := (resumes rfl).trans later
          have settles : ∀ text rest, matchTokens tokens text = .exhausted → Resumes text rest →
              matchTokens tokens rest ≠ .matched :=
            fun _ _ ended resumes => ih placed ended resumes.suffix fun _ => resumes
          rw [matchTokens] at exhausted
          split at exhausted
          · rename_i mismatch
            rcases behind with rfl | continues
            · rw [mismatch] at matched
              cases matched
            · exact not_matched_of_spreadParts_exhausted settles exhausted continues matched
          · exact settles _ _ exhausted behind matched
      | _ =>
          rw [isPlaced_cons_of_single rfl] at placed
          exact not_matched_of_single_exhausted rfl (fun _ _ ended behind resumes =>
            ih placed ended behind fun separator => resumes (of_decide_eq_true separator))
            exhausted suffix

theorem matchTokens_of_matches {tokens : List Token} {begins : Bool}
    (placed : isPlaced begins tokens = true) {text : List Char} (found : Matches tokens text) :
    matchTokens tokens text = .matched := by
  induction tokens generalizing begins text with
  | nil =>
      obtain rfl : text = [] := found
      rfl
  | cons token tokens ih =>
      cases token with
      | anySequence =>
          change isPlaced false tokens = true at placed
          obtain ⟨front, back, rfl, within, matched⟩ := found
          have settles : ∀ text rest, matchTokens tokens text = .exhausted → rest <:+ text →
              matchTokens tokens rest ≠ .matched :=
            fun _ _ ended suffix => not_matched_of_exhausted placed ended suffix nofun
          rw [matchTokens]
          exact spread_eq_matched settles within (ih placed matched)
      | anyParts =>
          rw [isPlaced, Bool.and_eq_true] at placed
          obtain ⟨rfl, placed⟩ := placed
          obtain ⟨back, resumes, matched⟩ := found
          have matched := ih placed matched
          have settles : ∀ text rest, matchTokens tokens text = .exhausted → Resumes text rest →
              matchTokens tokens rest ≠ .matched :=
            fun _ _ ended resumes =>
              not_matched_of_exhausted placed ended resumes.suffix fun _ => resumes
          rw [matchTokens]
          cases here : matchTokens tokens text with
          | matched => rfl
          | mismatch =>
              rcases resumes with rfl | continues
              · rw [here] at matched
                cases matched
              · exact spreadParts_eq_matched settles continues matched
          | exhausted => exact absurd matched (settles _ _ here resumes)
      | _ =>
          rw [isPlaced_cons_of_single rfl] at placed
          obtain ⟨c, following, rfl, accepts, matched⟩ := found
          rw [matchTokens_cons_of_single rfl, if_pos accepts]
          exact ih placed matched

theorem Pattern.isMatch_iff {pattern : Pattern} (placed : isPlaced true pattern.tokens = true)
    {text : List Char} : pattern.isMatch text = true ↔ Matches pattern.tokens text := by
  rw [isMatch, decide_eq_true_eq]
  exact ⟨matches_of_matchTokens, matchTokens_of_matches placed⟩

end ComponentSurvey.Glob
