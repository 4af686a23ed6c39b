import ComponentSurvey.Discovery.Filter
import ComponentSurvey.Proofs.Glob.Language

/-!
# How matched texts end

A pattern whose last token is a character matches only texts that end in it.
-/

namespace ComponentSurvey.Glob

theorem getLast?_of_matches {tokens : List Token} {last : Char} {text : List Char}
    (found : Matches (tokens ++ [.char last]) text) : text.getLast? = some last := by
  have behind (front : List Char) {back : List Char} (ends : back.getLast? = some last) :
      (front ++ back).getLast? = some last := by
    rw [List.getLast?_append, ends]
    rfl
  induction tokens generalizing text with
  | nil =>
      obtain ⟨c, _, rfl, accepts, ⟨⟩⟩ := found
      obtain rfl : c = last := of_decide_eq_true accepts
      rfl
  | cons token rest ih =>
      cases token with
      | anySequence =>
          obtain ⟨front, back, rfl, -, matched⟩ := found
          exact behind front (ih matched)
      | anyParts =>
          obtain ⟨back, resumes, matched⟩ := found
          obtain ⟨front, rfl⟩ := resumes.suffix
          exact behind front (ih matched)
      | _ =>
          obtain ⟨c, following, rfl, -, matched⟩ := found
          exact behind [c] (ih matched)

def Pattern.ending? (pattern : Pattern) : Option Char :=
  match pattern.tokens.getLast? with
  | some (.char last) => some last
  | _ => none

theorem Pattern.getLast?_of_isMatch {pattern : Pattern} {last : Char} {text : List Char}
    (ends : pattern.ending? = some last) (found : pattern.isMatch text = true) :
    text.getLast? = some last := by
  rw [ending?] at ends
  split at ends
  · rename_i c isLast
    obtain rfl := Option.some.inj ends
    obtain ⟨front, tokens⟩ := List.getLast?_eq_some_iff.mp isLast
    have matched := matches_of_matchTokens (of_decide_eq_true found)
    rw [tokens] at matched
    exact getLast?_of_matches matched
  · cases ends

/-- Patterns that all end in a character match no path that ends in another one. -/
theorem not_anyMatches {patterns : List Pattern} {path : String} {last : Char}
    (ends : ∀ pattern ∈ patterns, ∃ c, pattern.ending? = some c ∧ c ≠ last)
    (whole : (normalize path).getLast? = some last)
    (fileName : ((Path.fileName? path).getD "").toList.getLast? = some last) :
    anyMatches patterns path = false := by
  rw [anyMatches, List.any_eq_false]
  intro pattern member found
  obtain ⟨c, ending, other⟩ := ends pattern member
  rw [Bool.or_eq_true, Bool.and_eq_true] at found
  rcases found with found | ⟨-, found⟩
  · rw [Pattern.getLast?_of_isMatch ending found] at whole
    exact other (Option.some.inj whole)
  · rw [Pattern.getLast?_of_isMatch ending found] at fileName
    exact other (Option.some.inj fileName)

end ComponentSurvey.Glob
