import ComponentSurvey.Proofs.Glob.Language

/-!
# Patterns that are written

Reading a pattern takes one token after the other off its text.  Two stars are read only where a
part may begin, so the search for a match is exact for every pattern that can be written.
-/

namespace ComponentSurvey.Glob

theorem suffix_of_classContent? {text content after : List Char}
    (found : classContent? text = some (content, after)) : after <:+ text := by
  unfold classContent? at found
  split at found
  · cases found
  · rename_i first more
    dsimp only at found
    split at found
    · rename_i closing rest dropped
      cases found
      have behind : closing :: after <:+ more := dropped ▸ List.drop_suffix _ _
      exact ((List.suffix_cons _ _).trans behind).trans (List.suffix_cons _ _)
    · cases found

theorem classToken?_spec {text after : List Char} {token : Token}
    (found : classToken? text = some (token, after)) :
    (∃ specifiers, token = .within specifiers ∨ token = .except specifiers) ∧ after <:+ text := by
  unfold classToken? at found
  split at found
  · obtain ⟨content, closed, same⟩ := Option.map_eq_some_iff.mp found
    cases same
    exact ⟨⟨_, .inr rfl⟩, (suffix_of_classContent? closed).trans (List.suffix_cons _ _)⟩
  · obtain ⟨content, closed, same⟩ := Option.map_eq_some_iff.mp found
    cases same
    exact ⟨⟨_, .inl rfl⟩, suffix_of_classContent? closed⟩

/-- In front of the text stands one token, not two stars, which is read whatever was read before. -/
structure BeginsWith (token : Token) (last : Char) (after text : List Char) : Prop where
  notParts : token ≠ .anyParts
  separator : last = '/' ↔ token = .char '/'
  written : last = '/' → '/' ∈ text
  behind : ∃ c rest, text = c :: rest ∧ after <:+ rest
  reads : ∀ fuel position previous tokens, ∃ next,
    tokensFrom (fuel + 1) position previous tokens text =
      tokensFrom fuel next (some last) (token :: tokens) after

section Stars

variable (fuel position : Nat) {previous : Option Char} (tokens : List Token) {rest : List Char}

theorem tokensFrom_star (single : rest.head? ≠ some '*') :
    tokensFrom (fuel + 1) position previous tokens ('*' :: rest) =
      tokensFrom fuel (position + 1) (some '*') (.anySequence :: tokens) rest := by
  have none : rest.takeWhile (fun next => decide (next = '*')) = [] := by
    cases rest with
    | nil => rfl
    | cons d rest => exact List.takeWhile_cons_of_neg (by simpa using single)
  simp [tokensFrom, none]

variable (begins : isSeparatorOrNone previous = true)
include begins

theorem tokensFrom_lastParts :
    tokensFrom (fuel + 1) position previous tokens ['*', '*'] =
      tokensFrom fuel (position + 2) (some '*') (addAnyParts tokens) [] := by
  simp [tokensFrom, begins]

theorem tokensFrom_parts (following : List Char) :
    tokensFrom (fuel + 1) position previous tokens ('*' :: '*' :: '/' :: following) =
      tokensFrom fuel (position + 3) (some '/') (addAnyParts tokens) following := by
  simp [tokensFrom, begins]

end Stars

theorem twoStars_cases {fuel position : Nat} {previous : Option Char} {tokens read : List Token}
    {rest : List Char}
    (done : tokensFrom (fuel + 1) position previous tokens ('*' :: '*' :: rest) = .ok read) :
    isSeparatorOrNone previous = true ∧ (rest = [] ∨ ∃ following, rest = '/' :: following) := by
  cases begins : isSeparatorOrNone previous with
  | false =>
      cases rest with
      | nil => simp [tokensFrom, begins] at done
      | cons d rest => by_cases star : d = '*' <;> simp [tokensFrom, begins, star] at done
  | true =>
      refine ⟨rfl, ?_⟩
      cases rest with
      | nil => exact .inl rfl
      | cons d rest =>
          by_cases star : d = '*'
          · simp [tokensFrom, star] at done
          · by_cases slash : d = '/'
            · exact .inr ⟨rest, by rw [slash]⟩
            · simp [tokensFrom, begins, star, slash] at done

theorem beginsWith_or_twoStars {fuel position : Nat} {previous : Option Char}
    {tokens read : List Token} {c : Char} {rest : List Char}
    (done : tokensFrom (fuel + 1) position previous tokens (c :: rest) = .ok read) :
    (∃ token last after, BeginsWith token last after (c :: rest)) ∨
      isSeparatorOrNone previous = true ∧ c = '*' ∧
        (rest = ['*'] ∨ ∃ following, rest = '*' :: '/' :: following) := by
  by_cases question : c = '?'
  · subst question
    refine .inl ⟨.anyChar, '?', rest, by simp, by simp, by simp,
      ⟨_, _, rfl, List.suffix_refl _⟩, fun fuel position previous tokens => ⟨position + 1, ?_⟩⟩
    simp [tokensFrom]
  by_cases star : c = '*'
  · subst star
    by_cases second : rest.head? = some '*'
    · obtain ⟨rest, rfl⟩ := List.head?_eq_some_iff.mp second
      obtain ⟨begins, ended⟩ := twoStars_cases done
      exact .inr ⟨begins, rfl, by simpa using ended⟩
    · exact .inl ⟨.anySequence, '*', rest, by simp, by simp, by simp,
        ⟨_, _, rfl, List.suffix_refl _⟩, fun fuel position previous tokens =>
          ⟨position + 1, tokensFrom_star fuel position tokens second⟩⟩
  by_cases opening : c = '['
  · subst opening
    cases closed : classToken? rest with
    | none => simp [tokensFrom, closed] at done
    | some found =>
        obtain ⟨token, after⟩ := found
        obtain ⟨⟨specifiers, isClass⟩, suffix⟩ := classToken?_spec closed
        refine .inl ⟨token, ']', after, ?_, ?_, by simp, ⟨_, _, rfl, suffix⟩,
          fun fuel position previous tokens =>
            ⟨position + 1 + (rest.length - after.length), ?_⟩⟩
        · rcases isClass with rfl | rfl <;> simp
        · rcases isClass with rfl | rfl <;> simp
        · simp [tokensFrom, closed]
  · refine .inl ⟨.char c, c, rest, by simp, by simp, fun slash => by simp [slash],
      ⟨_, _, rfl, List.suffix_refl _⟩, fun fuel position previous tokens => ⟨position + 1, ?_⟩⟩
    simp [tokensFrom, question, star, opening]

def Token.opensPart (token : Token) : Bool := token = .char '/' || token = .anyParts

theorem isPlaced_cons {begins : Bool} {token : Token} {rest : List Token} :
    isPlaced begins (token :: rest) =
      ((token ≠ .anyParts || begins) && isPlaced token.opensPart rest) := by
  cases token <;> simp [isPlaced, Token.opensPart]

theorem isPlaced_concat {begins : Bool} {tokens : List Token} {token : Token} :
    isPlaced begins (tokens ++ [token]) =
      (isPlaced begins tokens &&
        (token ≠ .anyParts || (tokens.getLast?.map Token.opensPart).getD begins)) := by
  induction tokens generalizing begins with
  | nil => simp [isPlaced_cons, isPlaced]
  | cons first rest ih =>
      rw [List.cons_append, isPlaced_cons, ih, isPlaced_cons, Bool.and_assoc]
      congr 2
      cases rest with
      | nil => simp
      | cons next others =>
          obtain ⟨last, isLast⟩ : ∃ last, (next :: others).getLast? = some last :=
            ⟨_, List.getLast?_cons⟩
          rw [List.getLast?_cons_cons, isLast]
          rfl

/-- The tokens read so far, the last one first, and the character before the ones to come. -/
structure ReadSoFar (previous : Option Char) (tokens : List Token) : Prop where
  placed : isPlaced true tokens.reverse = true
  opens : isSeparatorOrNone previous = true → (tokens.head?.map Token.opensPart).getD true = true

theorem ReadSoFar.single {previous : Option Char} {tokens : List Token} {token : Token}
    {last : Char} {after text : List Char} (sofar : ReadSoFar previous tokens)
    (begins : BeginsWith token last after text) : ReadSoFar (some last) (token :: tokens) where
  placed := by
    rw [List.reverse_cons, isPlaced_concat, sofar.placed]
    simp [begins.notParts]
  opens isSeparator := by
    have slash : last = '/' := by simpa [isSeparatorOrNone] using isSeparator
    simp [begins.separator.mp slash, Token.opensPart]

theorem ReadSoFar.parts {previous next : Option Char} {tokens : List Token}
    (sofar : ReadSoFar previous tokens) (begins : isSeparatorOrNone previous = true) :
    ReadSoFar next (addAnyParts tokens) := by
  unfold addAnyParts
  split
  · exact ⟨sofar.placed, fun _ => rfl⟩
  · refine ⟨?_, fun _ => rfl⟩
    rw [List.reverse_cons, isPlaced_concat, sofar.placed, List.getLast?_reverse,
      sofar.opens begins]
    simp

theorem isPlaced_of_tokensFrom {fuel position : Nat} {previous : Option Char}
    {tokens read : List Token} {text : List Char} (sofar : ReadSoFar previous tokens)
    (done : tokensFrom fuel position previous tokens text = .ok read) :
    isPlaced true read = true := by
  induction fuel generalizing position previous tokens text with
  | zero =>
      cases done
      exact sofar.placed
  | succ fuel ih =>
      cases text with
      | nil =>
          cases done
          exact sofar.placed
      | cons c rest =>
          rcases beginsWith_or_twoStars done with
            ⟨token, last, after, begins⟩ | ⟨isSeparator, rfl, ended⟩
          · obtain ⟨next, reads⟩ := begins.reads fuel position previous tokens
            rw [reads] at done
            exact ih (sofar.single begins) done
          · rcases ended with rfl | ⟨following, rfl⟩
            · rw [tokensFrom_lastParts _ _ _ isSeparator] at done
              exact ih (sofar.parts isSeparator) done
            · rw [tokensFrom_parts _ _ _ isSeparator] at done
              exact ih (sofar.parts isSeparator) done

theorem Pattern.parse_eq_ok_iff {text : String} {pattern : Pattern} :
    parse text = .ok pattern ↔
      tokensFrom text.toList.length 0 none [] text.toList = .ok pattern.tokens ∧
        pattern.hasSeparator = text.toList.contains '/' := by
  unfold parse
  dsimp only
  cases tokensFrom text.toList.length 0 none [] text.toList with
  | error error => simp [bind, Except.bind]
  | ok tokens =>
      cases pattern
      simp [bind, Except.bind, pure, Except.pure, eq_comm]

theorem Pattern.isPlaced_of_parse {text : String} {pattern : Pattern}
    (parsed : parse text = .ok pattern) : isPlaced true pattern.tokens = true :=
  isPlaced_of_tokensFrom ⟨rfl, fun _ => rfl⟩ (parse_eq_ok_iff.mp parsed).1

/-- The search is exact. -/
theorem Pattern.isMatch_iff_of_parse {text : String} {pattern : Pattern}
    (parsed : parse text = .ok pattern) {path : List Char} :
    pattern.isMatch path = true ↔ Matches pattern.tokens path :=
  isMatch_iff (isPlaced_of_parse parsed)

end ComponentSurvey.Glob
