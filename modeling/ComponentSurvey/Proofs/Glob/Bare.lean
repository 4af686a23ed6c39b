import ComponentSurvey.Proofs.Glob.Parsing
import ComponentSurvey.Proofs.Glob.Segments

/-!
# Patterns without a separator

A pattern without a separator is also tried on the name of a file alone.  That is what two stars
and a separator in front of it would do, on every path that is spelled without empty or special
segments.
-/

namespace ComponentSurvey.Glob

/-- Text that is read token by token, with no two stars and no separator among them. -/
inductive ReadsInto : List Char → List Token → Prop
  | nil : ReadsInto [] []
  | cons {token : Token} {last : Char} {after text : List Char} {more : List Token}
      (begins : BeginsWith token last after text) (noSlash : last ≠ '/')
      (later : ReadsInto after more) : ReadsInto text (token :: more)

namespace ReadsInto

variable {text : List Char} {more : List Token}

theorem staysInside (reads : ReadsInto text more) : StaysInside more := by
  induction reads with
  | nil => exact nofun
  | cons begins noSlash _ ih =>
      have single := fun slash => noSlash (begins.separator.mpr slash)
      exact List.forall_mem_cons.mpr ⟨⟨begins.notParts, single⟩, ih⟩

theorem ne_nil (reads : ReadsInto text more) (nonempty : text ≠ []) : more ≠ [] := by
  cases reads with
  | nil => exact absurd rfl nonempty
  | cons => exact List.cons_ne_nil _ _

/-- What was read before does not count. -/
theorem tokensFrom_eq (reads : ReadsInto text more) {fuel : Nat} (enough : text.length ≤ fuel)
    (position : Nat) (previous : Option Char) (tokens : List Token) :
    tokensFrom fuel position previous tokens text = .ok (tokens.reverse ++ more) := by
  induction reads generalizing fuel position previous tokens with
  | nil => cases fuel <;> simp [tokensFrom]
  | cons begins _ _ ih =>
      obtain ⟨c, rest, rfl, suffix⟩ := begins.behind
      have shorter := suffix.length_le
      rw [List.length_cons] at enough
      obtain ⟨less, rfl⟩ : ∃ less, fuel = less + 1 := Nat.exists_eq_succ_of_ne_zero (by omega)
      obtain ⟨next, reads⟩ := begins.reads less position previous tokens
      rw [reads, ih (by omega), List.reverse_cons, List.append_assoc, List.singleton_append]

end ReadsInto

/-- But for two stars alone, all text without a separator is read so. -/
theorem exists_readsInto {fuel position : Nat} {previous : Option Char} {tokens read : List Token}
    {text : List Char} (done : tokensFrom fuel position previous tokens text = .ok read)
    (enough : text.length ≤ fuel) (bare : '/' ∉ text)
    (notParts : isSeparatorOrNone previous = true → text ≠ ['*', '*']) :
    ∃ more, ReadsInto text more := by
  induction fuel generalizing position previous tokens text with
  | zero =>
      obtain rfl : text = [] := by simpa using enough
      exact ⟨[], .nil⟩
  | succ fuel ih =>
      cases text with
      | nil => exact ⟨[], .nil⟩
      | cons c rest =>
          rcases beginsWith_or_twoStars done with
            ⟨token, last, after, begins⟩ | ⟨isSeparator, rfl, rfl | ⟨following, rfl⟩⟩
          · obtain ⟨first, behind, split, suffix⟩ := begins.behind
            obtain ⟨rfl, rfl⟩ := List.cons.inj split
            have noSlash : last ≠ '/' := fun slash => bare (begins.written slash)
            have shorter := suffix.length_le
            rw [List.length_cons] at enough
            obtain ⟨next, reads⟩ := begins.reads fuel position previous tokens
            rw [reads] at done
            obtain ⟨more, later⟩ := ih done (by omega)
              (fun slash => bare (List.mem_cons_of_mem _ (suffix.subset slash)))
              (by simp [isSeparatorOrNone, noSlash])
            exact ⟨token :: more, .cons begins noSlash later⟩
          · exact absurd rfl (notParts isSeparator)
          · simp at bare

inductive Deepens : Pattern → Pattern → Prop
  | parts : Deepens ⟨[.anyParts], false⟩ ⟨[.anyParts, .anyParts], true⟩
  | inside {tokens : List Token} (inside : StaysInside tokens) (nonempty : tokens ≠ []) :
    Deepens ⟨tokens, false⟩ ⟨.anyParts :: tokens, true⟩

variable {bare : String} {pattern deep : Pattern}

theorem exists_deepens (valid : Pattern.parse bare = .ok pattern) (nonempty : bare ≠ "")
    (single : '/' ∉ bare.toList) :
    ∃ deep, Pattern.parse ("**/" ++ bare) = .ok deep ∧ Deepens pattern deep := by
  obtain ⟨done, separator⟩ := Pattern.parse_eq_ok_iff.mp valid
  have hasSeparator : pattern.hasSeparator = false := by simpa [separator] using single
  obtain ⟨read, isSeparated⟩ := pattern
  obtain rfl : isSeparated = false := hasSeparator
  dsimp only at done
  by_cases parts : bare.toList = ['*', '*']
  · obtain rfl : bare = "**" := String.toList_injective parts
    obtain rfl : [Token.anyParts] = read := Except.ok.inj done
    exact ⟨_, rfl, .parts⟩
  · obtain ⟨more, reads⟩ := exists_readsInto done (Nat.le_refl _) single fun _ => parts
    rw [reads.tokensFrom_eq (Nat.le_refl _)] at done
    obtain rfl : more = read := Except.ok.inj done
    have text : ("**/" ++ bare).toList = '*' :: '*' :: '/' :: bare.toList := by simp
    refine ⟨⟨.anyParts :: more, true⟩, Pattern.parse_eq_ok_iff.mpr ⟨?_, by simp [text]⟩,
      .inside reads.staysInside (reads.ne_nil (by simpa using nonempty))⟩
    rw [text]
    exact (tokensFrom_parts _ 0 [] rfl bare.toList).trans
      (reads.tokensFrom_eq (Nat.le_add_right _ 2) _ _ [.anyParts])

/-- Every segment names something, and slashes alone separate. -/
def IsPlainPath (path : String) : Prop :=
  ∀ segment ∈ segments path.toList,
    segment ≠ [] ∧ '\\' ∉ segment ∧ segment ≠ ['.'] ∧ segment ≠ ['.', '.']

instance (path : String) : Decidable (IsPlainPath path) :=
  inferInstanceAs (Decidable (∀ segment ∈ segments path.toList,
    segment ≠ [] ∧ '\\' ∉ segment ∧ segment ≠ ['.'] ∧ segment ≠ ['.', '.']))

namespace IsPlainPath

variable {path : String} (plain : IsPlainPath path)
include plain

theorem isPlain_segments : Place.IsPlain (segments path.toList) where
  nonempty := segments_ne_nil _
  named segment listed := by
    obtain ⟨filled, -, notHere, notUp⟩ := plain segment listed
    refine ⟨?_, slash_notMem_of_mem_segments listed⟩
    simp [Path.innerPart?, filled, notHere, notUp]

theorem toList_fileName :
    (segments path.toList).getLast? = some ((Path.fileName? path).getD "").toList := by
  obtain ⟨name, isLast, -⟩ := exists_last_segment path.toList
  have parts : Path.parts path = (segments path.toList).map .name := by
    rw [← Path.parts_path plain.isPlain_segments, path_segments]
  rw [Path.fileName?, parts, List.getLast?_map, isLast]
  simp

theorem normalize_eq : normalize path = path.toList := by
  refine (List.map_congr_left fun c member => ?_).trans (List.map_id _)
  refine if_neg fun backslash => ?_
  subst backslash
  obtain ⟨segment, listed, within⟩ := exists_mem_segments (by decide) member
  exact (plain segment listed).2.1 within

end IsPlainPath

theorem Deepens.matches_iff (deepens : Deepens pattern deep) {text name : List Char}
    (isLast : (segments text).getLast? = some name) :
    Matches pattern.tokens text ∨ Matches pattern.tokens name ↔ Matches deep.tokens text := by
  cases deepens with
  | parts =>
      have anything (tokens : List Token) (matched : Matches tokens []) :
          Matches (.anyParts :: tokens) text := ⟨[], .inr (.inl rfl), matched⟩
      exact iff_of_true (.inl (anything [] rfl))
        (anything [.anyParts] ⟨[], .inl rfl, rfl⟩)
  | inside inside nonempty =>
      rw [inside.matches_anywhere_iff nonempty, isLast]
      constructor
      · rintro (whole | last)
        · have alone := segments_of_slash_notMem (inside.slash_notMem whole)
          rw [alone] at isLast
          exact ⟨text, isLast.symm, whole⟩
        · exact ⟨name, rfl, last⟩
      · rintro ⟨_, ⟨⟩, last⟩
        exact .inr last

theorem anyMatches_singleton_iff {path : String} (valid : Pattern.parse bare = .ok pattern) :
    anyMatches [pattern] path = true ↔
      Matches pattern.tokens (normalize path) ∨ pattern.hasSeparator = false ∧
        Matches pattern.tokens ((Path.fileName? path).getD "").toList := by
  simp [anyMatches, Pattern.isMatch_iff_of_parse valid]

theorem Deepens.hasSeparator_eq (deepens : Deepens pattern deep) :
    pattern.hasSeparator = false ∧ deep.hasSeparator = true := by
  cases deepens <;> exact ⟨rfl, rfl⟩

theorem Deepens.anyMatches_singleton_eq {below path : String} (deepens : Deepens pattern deep)
    (valid : Pattern.parse bare = .ok pattern) (deepValid : Pattern.parse below = .ok deep)
    (plain : IsPlainPath path) : anyMatches [deep] path = anyMatches [pattern] path := by
  obtain ⟨isBare, isDeep⟩ := deepens.hasSeparator_eq
  rw [Bool.eq_iff_iff, anyMatches_singleton_iff deepValid, anyMatches_singleton_iff valid,
    plain.normalize_eq, ← deepens.matches_iff plain.toList_fileName]
  simp [isBare, isDeep]

theorem parseAll_cons_eq_ok_iff {text : String} {texts : List String} {patterns : List Pattern} :
    parseAll (text :: texts) = .ok patterns ↔
      ∃ pattern others, Pattern.parse text = .ok pattern ∧ parseAll texts = .ok others ∧
        patterns = pattern :: others := by
  rw [parseAll, List.mapM_cons, ← parseAll]
  cases Pattern.parse text with
  | error error => simp [bind, Except.bind]
  | ok pattern =>
      cases parseAll texts with
      | error error => simp [bind, Except.bind]
      | ok others => simp [bind, Except.bind, pure, Except.pure, eq_comm]

theorem parseAll_append_eq_ok_iff {first second : List String} {patterns : List Pattern} :
    parseAll (first ++ second) = .ok patterns ↔
      ∃ front back, parseAll first = .ok front ∧ parseAll second = .ok back ∧
        patterns = front ++ back := by
  induction first generalizing patterns with
  | nil =>
      have none : parseAll [] = .ok [] := rfl
      simp [none, eq_comm]
  | cons text texts ih =>
      simp only [List.cons_append, parseAll_cons_eq_ok_iff, ih]
      constructor
      · rintro ⟨pattern, _, valid, ⟨front, back, others, more, rfl⟩, rfl⟩
        exact ⟨_, back, ⟨pattern, front, valid, others, rfl⟩, more, rfl⟩
      · rintro ⟨_, back, ⟨pattern, front, valid, others, rfl⟩, more, rfl⟩
        exact ⟨pattern, _, valid, ⟨front, back, others, more, rfl⟩, rfl⟩

theorem anyMatches_append {first second : List Pattern} {path : String} :
    anyMatches (first ++ second) path = (anyMatches first path || anyMatches second path) := by
  simp [anyMatches]

theorem anyMatches_cons {pattern : Pattern} {others : List Pattern} {path : String} :
    anyMatches (pattern :: others) path =
      (anyMatches [pattern] path || anyMatches others path) := by
  simp [anyMatches]

/-- In a list of patterns, one without a separator says the same behind two stars and a
separator. -/
theorem anyMatches_deepened {before after : List String} {bare : String} {patterns : List Pattern}
    (valid : parseAll (before ++ bare :: after) = .ok patterns) (nonempty : bare ≠ "")
    (single : '/' ∉ bare.toList) :
    ∃ deeper, parseAll (before ++ ("**/" ++ bare) :: after) = .ok deeper ∧
      ∀ path, IsPlainPath path → anyMatches deeper path = anyMatches patterns path := by
  obtain ⟨front, _, isFront, rest, rfl⟩ := parseAll_append_eq_ok_iff.mp valid
  obtain ⟨pattern, back, parsed, isBack, rfl⟩ := parseAll_cons_eq_ok_iff.mp rest
  obtain ⟨deep, deepParsed, deepens⟩ := exists_deepens parsed nonempty single
  refine ⟨front ++ deep :: back, ?_, fun path plain => ?_⟩
  · exact parseAll_append_eq_ok_iff.mpr ⟨front, deep :: back, isFront,
      parseAll_cons_eq_ok_iff.mpr ⟨deep, back, deepParsed, isBack, rfl⟩, rfl⟩
  · have same := deepens.anyMatches_singleton_eq parsed deepParsed plain
    rw [anyMatches_append, anyMatches_append, anyMatches_cons, same, ← anyMatches_cons]

theorem anyMatches_deepened_tests :
    ∃ patterns, parseAll ["src/*.ts", "*.test.ts[x]"] = .ok patterns ∧ "*.test.ts[x]" ≠ "" ∧
      '/' ∉ "*.test.ts[x]".toList ∧ IsPlainPath "src/deep/App.test.tsx" ∧
      ∃ deeper, parseAll ["src/*.ts", "**/*.test.ts[x]"] = .ok deeper ∧
        anyMatches patterns "src/deep/App.test.tsx" = true ∧
        anyMatches deeper "src/deep/App.test.tsx" = true := by
  have nonempty : "*.test.ts[x]" ≠ "" := by decide
  have single : '/' ∉ "*.test.ts[x]".toList := by decide
  have plain : IsPlainPath "src/deep/App.test.tsx" := by decide +kernel
  have found : ((parseAll ["src/*.ts", "*.test.ts[x]"]).toOption.any
    fun patterns => anyMatches patterns "src/deep/App.test.tsx") = true := by decide +kernel
  cases valid : parseAll ["src/*.ts", "*.test.ts[x]"] with
  | error error => simp [valid, Except.toOption] at found
  | ok patterns =>
      have found : anyMatches patterns "src/deep/App.test.tsx" = true := by
        simpa [valid, Except.toOption] using found
      have listed : parseAll (["src/*.ts"] ++ "*.test.ts[x]" :: []) = .ok patterns := valid
      obtain ⟨deeper, deepValid, same⟩ := anyMatches_deepened listed nonempty single
      exact ⟨patterns, rfl, nonempty, single, plain, deeper, deepValid, found,
        (same _ plain).trans found⟩

end ComponentSurvey.Glob
