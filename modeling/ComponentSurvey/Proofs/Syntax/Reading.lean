import ComponentSurvey.Proofs.Syntax.Production
import ComponentSurvey.Syntax.Reader

/-!
# What readers promise

`Reads text low post reader` says of a reader that, started inside a text at or behind an offset, it
stays inside the text and behind that offset, and that what it answers and where it stops satisfy a
postcondition.  Every way of combining readers has one rule, so that a production is shown to keep
its promise by a term of the production's own shape.
-/

namespace ComponentSurvey.Syntax

open Text

/-! ## Scanners -/

/-- What the scanner matches is the front of the text. -/
def Splits (scan : List Char → Match) : Prop :=
  ∀ ⦃text passed rest⦄, scan text = some (passed, rest) → text = passed ++ rest

theorem append_of_splitCount {count : Nat} {text passed rest : List Char}
    (matched : splitCount count text = some (passed, rest)) : text = passed ++ rest := by
  rw [splitCount] at matched
  split at matched
  · cases matched
  · cases matched
    exact (List.take_append_drop count text).symm

namespace Splits

theorem splitCount (count : List Char → Nat) :
    Splits fun text => Syntax.splitCount (count text) text :=
  fun _ _ _ matched => append_of_splitCount matched

theorem ite {holds : List Char → Prop} [DecidablePred holds] {scan : List Char → Match}
    (splits : Splits scan) : Splits fun text => if holds text then scan text else none := by
  intro text passed rest matched
  dsimp only at matched
  split at matched
  · exact splits matched
  · cases matched

theorem scanName : Splits scanName := splitCount _

theorem scanMarkupName : Splits scanMarkupName := splitCount _

theorem scanNumber : Splits scanNumber := splitCount _

theorem scanPageComment : Splits scanPageComment := ite (splitCount _)

/-- Characters that are matched whatever follows them. -/
theorem front (expected : List Char) (count : Nat) :
    Splits fun text => if startsWith expected text then Syntax.splitCount count text else none :=
  ite (splitCount _)

theorem scanPrivateName : Splits scanPrivateName := by
  intro text passed rest matched
  unfold Syntax.scanPrivateName at matched
  split at matched
  · dsimp only at matched
    split at matched
    · cases matched
    · exact append_of_splitCount matched
  · cases matched

theorem scanComment : Splits scanComment := by
  intro text passed rest matched
  unfold Syntax.scanComment at matched
  split at matched
  · exact append_of_splitCount matched
  · obtain ⟨count, -, matched⟩ := Option.bind_eq_some_iff.mp matched
    exact append_of_splitCount matched
  · cases matched

theorem scanString : Splits scanString := by
  intro text passed rest matched
  unfold Syntax.scanString at matched
  split at matched
  · split at matched
    · obtain ⟨count, -, matched⟩ := Option.bind_eq_some_iff.mp matched
      exact append_of_splitCount matched
    · cases matched
  · cases matched

theorem scanAttributeString : Splits scanAttributeString := by
  intro text passed rest matched
  unfold Syntax.scanAttributeString at matched
  split at matched
  · split at matched
    · obtain ⟨count, -, matched⟩ := Option.bind_eq_some_iff.mp matched
      exact append_of_splitCount matched
    · cases matched
  · cases matched

theorem scanRegex : Splits scanRegex := by
  intro text passed rest matched
  unfold Syntax.scanRegex at matched
  split at matched
  · split at matched
    · cases matched
    · obtain ⟨count, -, matched⟩ := Option.bind_eq_some_iff.mp matched
      exact append_of_splitCount matched
  · cases matched

end Splits

def Consumes (scan : List Char → Match) : Prop :=
  ∀ ⦃text passed rest⦄, scan text = some (passed, rest) → passed ≠ []

theorem ne_nil_of_splitCount {count : Nat} {text passed rest : List Char} (solid : text ≠ [])
    (matched : splitCount count text = some (passed, rest)) : passed ≠ [] := by
  rw [splitCount] at matched
  split at matched
  · cases matched
  · cases matched
    simp_all

namespace Consumes

theorem scanName : Consumes scanName := by
  intro text passed rest matched
  cases text with
  | nil => cases matched
  | cons c text => exact ne_nil_of_splitCount (List.cons_ne_nil _ _) matched

theorem scanMarkupName : Consumes scanMarkupName := by
  intro text passed rest matched
  cases text with
  | nil => cases matched
  | cons c text => exact ne_nil_of_splitCount (List.cons_ne_nil _ _) matched

theorem scanComment : Consumes scanComment := by
  intro text passed rest matched
  unfold Syntax.scanComment at matched
  split at matched
  · exact ne_nil_of_splitCount (List.cons_ne_nil _ _) matched
  · obtain ⟨count, -, matched⟩ := Option.bind_eq_some_iff.mp matched
    exact ne_nil_of_splitCount (List.cons_ne_nil _ _) matched
  · cases matched

end Consumes

/-! ## Quotes -/

/-- A quote ends the characters that are counted. -/
def EndsIn (quote : Char) (text : List Char) (count : Nat) : Prop :=
  ∃ content, text.take count = content ++ [quote]

namespace EndsIn

variable {quote : Char} {text : List Char} {count : Nat}

theorem one {rest : List Char} : EndsIn quote (quote :: rest) 1 := ⟨[], rfl⟩

theorem of_drop (passed : Nat) (ends : EndsIn quote (text.drop passed) count) :
    EndsIn quote text (count + passed) := by
  obtain ⟨content, taken⟩ := ends
  refine ⟨text.take passed ++ content, ?_⟩
  rw [Nat.add_comm, List.take_add, taken, List.append_assoc]

theorem of_append {front back : List Char} (split : text = front ++ back)
    (ends : EndsIn quote back count) : EndsIn quote text (count + front.length) := by
  apply of_drop front.length
  rw [split, List.drop_left]
  exact ends

theorem stringTail {fuel : Nat} (closed : stringTail quote fuel text = some count) :
    EndsIn quote text count := by
  induction fuel generalizing text count with
  | zero => cases closed
  | succ fuel ih =>
      unfold Syntax.stringTail at closed
      split at closed
      · cases closed
      · obtain ⟨escape, -, closed⟩ := Option.bind_eq_some_iff.mp closed
        obtain ⟨after, tail, same⟩ := Option.bind_eq_some_iff.mp closed
        obtain rfl := Option.some.inj same
        exact .of_drop (escape + 1) (ih tail)
      · rename_i c rest _
        split at closed
        · rename_i isEnd
          obtain rfl := Option.some.inj closed
          exact isEnd ▸ .one
        · split at closed
          · have split : c :: rest = (c :: rest.takeWhile isSeparator) ++
                rest.drop (rest.takeWhile isSeparator).length :=
              congrArg (c :: ·) (List.prefix_iff_eq_append.mp (List.takeWhile_prefix _)).symm
            dsimp only at closed
            generalize rest.takeWhile isSeparator = gap at split closed
            generalize rest.drop gap.length = next at split closed
            split at closed
            · rename_i comment after matched
              obtain ⟨tail, ended, rfl⟩ := Option.map_eq_some_iff.mp closed
              rw [Splits.scanComment matched, ← List.append_assoc] at split
              have ends := EndsIn.of_append split (ih ended)
              simp only [List.length_append, List.length_cons] at ends
              convert ends using 1
              omega
            · split at closed
              · rename_i isEnd
                obtain rfl := Option.some.inj closed
                obtain ⟨others, rfl⟩ := List.head?_eq_some_iff.mp isEnd
                have ends := EndsIn.of_append split .one
                rwa [List.length_cons, Nat.add_comm] at ends
              · cases closed
          · obtain ⟨tail, ended, rfl⟩ := Option.map_eq_some_iff.mp closed
            exact .of_drop 1 (ih ended)

theorem attributeStringTail {fuel : Nat} {opens : Bool}
    (closed : attributeStringTail quote fuel opens text = some count) :
    EndsIn quote text count := by
  induction fuel generalizing text count opens with
  | zero => cases closed
  | succ fuel ih =>
      unfold Syntax.attributeStringTail at closed
      dsimp only at closed
      generalize (if opens then openingCommentLength text else 0) = hidden at closed
      split at closed
      · obtain ⟨tail, ended, rfl⟩ := Option.map_eq_some_iff.mp closed
        exact .of_drop hidden (ih ended)
      · split at closed
        · cases closed
        · split at closed
          · obtain ⟨reference, -, closed⟩ := Option.bind_eq_some_iff.mp closed
            obtain ⟨after, tail, same⟩ := Option.bind_eq_some_iff.mp closed
            obtain rfl := Option.some.inj same
            exact .of_drop reference (ih tail)
          · obtain ⟨tail, ended, rfl⟩ := Option.map_eq_some_iff.mp closed
            exact .of_drop 2 (ih ended)
        · split at closed
          · rename_i isEnd
            obtain rfl := Option.some.inj closed
            exact isEnd ▸ .one
          · obtain ⟨tail, ended, rfl⟩ := Option.map_eq_some_iff.mp closed
            exact .of_drop 1 (ih ended)

end EndsIn

/-- What the scanner matches has the same quote at both ends. -/
def Delimits (quotes : List Char) (scan : List Char → Match) : Prop :=
  ∀ ⦃text passed rest⦄, scan text = some (passed, rest) →
    ∃ quote ∈ quotes, ∃ content, passed = quote :: content ++ [quote]

theorem exists_content {quote : Char} {text passed rest : List Char} {count : Nat}
    (ends : EndsIn quote text count)
    (matched : splitCount (count + 1) (quote :: text) = some (passed, rest)) :
    ∃ content, passed = quote :: content ++ [quote] := by
  obtain ⟨content, taken⟩ := ends
  cases matched
  exact ⟨content, congrArg (quote :: ·) taken⟩

namespace Delimits

theorem scanString : Delimits ['"', '\''] scanString := by
  intro text passed rest matched
  unfold Syntax.scanString at matched
  split at matched
  · rename_i quote text
    split at matched
    · rename_i isQuote
      obtain ⟨count, closed, matched⟩ := Option.bind_eq_some_iff.mp matched
      exact ⟨quote, by simpa using isQuote, exists_content (.stringTail closed) matched⟩
    · cases matched
  · cases matched

theorem scanAttributeString : Delimits ['"', '\''] scanAttributeString := by
  intro text passed rest matched
  unfold Syntax.scanAttributeString at matched
  split at matched
  · rename_i quote text
    split at matched
    · rename_i isQuote
      obtain ⟨count, closed, matched⟩ := Option.bind_eq_some_iff.mp matched
      exact ⟨quote, by simpa using isQuote, exists_content (.attributeStringTail closed) matched⟩
    · cases matched
  · cases matched

end Delimits

/-! ## Places in the text -/

/-- What is read ahead is the text from an offset on, which lies at or behind another offset; the
comments passed are kept as nodes of their own. -/
structure Input.Stands (text : List Char) (low : Nat) (input : Input) : Prop where
  split : ∃ front, text = front ++ input.rest ∧ byteLength front = input.offset
  low_le : low ≤ input.offset
  comments : ∀ comment ∈ input.comments, ∃ kind, kind.isMinor = true ∧ comment.role = none ∧
    Token text kind comment

namespace Input.Stands

variable {text : List Char} {low : Nat} {input : Input}

theorem boundary (stands : input.Stands text low) : IsBoundary text input.offset := by
  obtain ⟨front, whole, length⟩ := stands.split
  exact ⟨front, input.rest, whole, length⟩

theorem here (stands : input.Stands text low) : input.Stands text input.offset :=
  { stands with low_le := Nat.le_refl _ }

theorem from_le (stands : input.Stands text low) {lower : Nat} (le : lower ≤ low) :
    input.Stands text lower :=
  { stands with low_le := le.trans stands.low_le }

theorem skip (stands : input.Stands text low) {passed rest : List Char}
    (ahead : input.rest = passed ++ rest) : (input.skip passed rest).Stands text low where
  split := by
    obtain ⟨front, whole, length⟩ := stands.split
    refine ⟨front ++ passed, ?_, ?_⟩
    · rw [whole, ahead, List.append_assoc]
      rfl
    · rw [byteLength_append, length]
      rfl
  low_le := stands.low_le.trans (Nat.le_add_right _ _)
  comments := stands.comments

theorem slice_skip (stands : input.Stands text low) {passed rest : List Char}
    (ahead : input.rest = passed ++ rest) :
    slice text input.offset (input.skip passed rest).offset = passed := by
  obtain ⟨front, whole, length⟩ := stands.split
  rw [whole, ahead, ← length, Input.skip, ← length]
  exact slice_middle _ _ _

theorem skipSeparators (stands : input.Stands text low) :
    input.skipSeparators.Stands text low :=
  stands.skip (List.prefix_iff_eq_append.mp (List.takeWhile_prefix _)).symm

theorem skipForm? (stands : input.Stands text low) {kind : Kind} (minor : kind.isMinor = true)
    {scan : List Char → Match} (splits : Splits scan) {after : Input}
    (skipped : input.skipForm? kind scan = some after) : after.Stands text low := by
  rw [Input.skipForm?] at skipped
  split at skipped
  · cases skipped
  · rename_i passed rest matched
    cases skipped
    have behind := stands.skip (splits matched)
    refine { behind with comments := List.forall_mem_cons.mpr ⟨?_, stands.comments⟩ }
    exact ⟨kind, minor, rfl, rfl, rfl, stands.boundary, behind.boundary,
      by simp [Kind.isName_of_isMinor minor]⟩

theorem skipComment? (stands : input.Stands text low) {after : Input}
    (skipped : input.skipComment? = some after) : after.Stands text low :=
  stands.skipForm? rfl .scanComment skipped

theorem skipBlanks (stands : input.Stands text low) (fuel : Nat) :
    (input.skipBlanks fuel).Stands text low := by
  induction fuel generalizing input with
  | zero => exact stands
  | succ fuel ih =>
      rw [Input.skipBlanks]
      split
      · rename_i after skipped
        exact ih (stands.skipSeparators.skipComment? skipped)
      · exact stands.skipSeparators

theorem skipOpening (stands : input.Stands text low) (fuel : Nat) :
    (input.skipOpening fuel).Stands text low := by
  induction fuel generalizing input with
  | zero => exact stands
  | succ fuel ih =>
      rw [Input.skipOpening]
      split
      · rename_i after skipped
        exact ih ((stands.skipBlanks _).skipForm? rfl .scanPageComment skipped)
      · exact stands.skipBlanks _

theorem endOfLine? (stands : input.Stands text low) {ending : Ending} {fuel : Nat} {after : Input}
    (ended : input.endOfLine? ending fuel = some after) : after.Stands text low := by
  induction fuel generalizing input with
  | zero => cases ended
  | succ fuel ih =>
      rw [Input.endOfLine?] at ended
      split at ended
      · cases ended
      · split at ended
        · cases ended
          exact stands
        · split at ended
          · rename_i next skipped
            exact ih (stands.skipSeparators.skipComment? skipped) ended
          · cases ended

end Input.Stands

/-! ## Blanks -/

/-- There is neither a separator nor a comment ahead. -/
structure Input.IsSettled (input : Input) : Prop where
  separators : input.rest.takeWhile isSeparator = []
  comment : scanComment input.rest = none

namespace Input

variable {input : Input}

theorem takeWhile_skipSeparators :
    input.skipSeparators.rest.takeWhile isSeparator = [] := by
  unfold skipSeparators skip
  dsimp only
  induction input.rest with
  | nil => rfl
  | cons c rest ih => cases passed : isSeparator c <;> simp [passed, ih]

theorem isSettled_skipBlanks {fuel : Nat} (enough : input.rest.length < fuel) :
    (input.skipBlanks fuel).IsSettled := by
  induction fuel generalizing input with
  | zero => omega
  | succ fuel ih =>
      rw [skipBlanks]
      have shorter : input.skipSeparators.rest.length ≤ input.rest.length := by
        simp [skipSeparators, skip]
      split
      · rename_i after skipped
        apply ih
        rw [skipComment?, skipForm?] at skipped
        split at skipped
        · cases skipped
        · rename_i passed rest matched
          cases skipped
          have consumed := List.length_pos_iff.mpr (Consumes.scanComment matched)
          have whole := congrArg List.length (Splits.scanComment matched)
          rw [List.length_append] at whole
          dsimp only [skip]
          omega
      · rename_i noComment
        refine ⟨takeWhile_skipSeparators, ?_⟩
        rw [skipComment?, skipForm?] at noComment
        split at noComment
        · assumption
        · cases noComment

/-- Blanks are passed over once. -/
theorem IsSettled.skipBlanks_eq (settled : input.IsSettled) (fuel : Nat) :
    input.skipBlanks fuel = input := by
  cases fuel with
  | zero => rfl
  | succ fuel =>
      have here : input.skipSeparators = input := by
        rw [skipSeparators, settled.separators]
        rfl
      rw [skipBlanks, here, skipComment?, skipForm?, settled.comment]

end Input

/-! ## Readers -/

/-- A reader that starts behind an offset stays behind it, and what it answers at the offset where
it stops satisfies the postcondition. -/
def Reads {α : Type} (text : List Char) (low : Nat) (post : α → Nat → Prop) (reader : Reader α) :
    Prop :=
  ∀ input, input.Stands text low → ∀ value after, reader input = some (value, after) →
    after.Stands text low ∧ post value after.offset

/-- A reader whose answers have a property wherever it stops. -/
abbrev Yields {α : Type} (text : List Char) (low : Nat) (property : α → Prop)
    (reader : Reader α) : Prop :=
  Reads text low (fun value _ => property value) reader

abbrev Passes {α : Type} (text : List Char) (low : Nat) (reader : Reader α) : Prop :=
  Reads text low (fun _ _ => True) reader

/-- A reader that leaves everything ahead. -/
def Looks {α : Type} (reader : Reader α) : Prop :=
  ∀ input value after, reader input = some (value, after) → after = input

namespace Looks

open Reader

variable {α β : Type} {reader : Reader α} {next : α → Reader β}

theorem pure (value : α) : Looks (Pure.pure value : Reader α) := by
  intro input value after found
  cases found
  rfl

theorem get : Looks (MonadState.get : Reader Input) := by
  intro input value after found
  cases found
  rfl

theorem bind (first : Looks reader) (second : ∀ value, Looks (next value)) :
    Looks (reader >>= next) := by
  intro input value after found
  obtain ⟨⟨middle, between⟩, foundFirst, foundSecond⟩ := Option.bind_eq_some_iff.mp found
  rw [second middle between value after foundSecond, first input middle between foundFirst]

theorem ite {condition : Prop} [Decidable condition] {other : Reader α} (isTrue : Looks reader)
    (isFalse : Looks other) : Looks (if condition then reader else other) := by
  split
  · exact isTrue
  · exact isFalse

theorem ahead : Looks ahead := bind get fun _ => bind get fun _ => pure _

theorem nextIs (expected : Char) : Looks (nextIs expected) := bind ahead fun _ => pure _

theorem operator : Looks operator := bind ahead fun _ => pure _

theorem operatorIs (expected : String) : Looks (operatorIs expected) :=
  bind operator fun _ => pure _

theorem wordAhead : Looks wordAhead := bind ahead fun _ => pure _

theorem wordIs (expected : String) : Looks (wordIs expected) := bind wordAhead fun _ => pure _

theorem afterWord : Looks afterWord := by
  intro input value after found
  simp only [Reader.afterWord] at found
  split at found <;> cases found <;> rfl

theorem arrowAhead : Looks arrowAhead := bind get fun _ => pure _

theorem isMarkup : Looks isMarkup := bind get fun _ => pure _

theorem endsHere (ending : Ending) : Looks (endsHere ending) := bind get fun _ => pure _

theorem fuel : Looks fuel := bind get fun _ => pure _

theorem test (reader : Reader α) : Looks (test reader) := by
  intro input value after found
  cases found
  rfl

end Looks

namespace Reads

open Reader

variable {text : List Char} {low : Nat} {α β : Type} {property : α → Prop}
  {post : α → Nat → Prop} {later : β → Nat → Prop} {reader other : Reader α}
  {next : α → Reader β}

/-! ### Answers -/

theorem pure {value : α} (promised : ∀ stop, low ≤ stop → post value stop) :
    Reads text low post (Pure.pure value : Reader α) := by
  intro input stands value after found
  cases found
  exact ⟨stands, promised _ stands.low_le⟩

theorem done {value : α} (promised : property value) :
    Yields text low property (Pure.pure value : Reader α) :=
  pure fun _ _ => promised

theorem refuse : Reads text low post (Reader.refuse : Reader α) := by
  intro input stands value after found
  cases found

theorem weaken {weaker : α → Nat → Prop} (reads : Reads text low post reader)
    (implies : ∀ value stop, low ≤ stop → post value stop → weaker value stop) :
    Reads text low weaker reader := by
  intro input stands value after found
  obtain ⟨behind, promised⟩ := reads input stands value after found
  exact ⟨behind, implies _ _ behind.low_le promised⟩

theorem and {also : α → Nat → Prop} (reads : Reads text low post reader)
    (holds : ∀ input, input.Stands text low → ∀ value after,
      reader input = some (value, after) → also value after.offset) :
    Reads text low (fun value stop => post value stop ∧ also value stop) reader := by
  intro input stands value after found
  obtain ⟨behind, promised⟩ := reads input stands value after found
  exact ⟨behind, promised, holds input stands value after found⟩

theorem look (looks : Looks reader) : Passes text low reader := by
  intro input stands value after found
  rw [looks input value after found]
  exact ⟨stands, trivial⟩

/-! ### Sequences -/

/-- What comes next starts where the first reader stops. -/
theorem bind_le (first : Reads text low post reader)
    (second : ∀ {stop} value, low ≤ stop → post value stop → Reads text stop later (next value)) :
    Reads text low later (reader >>= next) := by
  intro input stands value after found
  obtain ⟨⟨middle, between⟩, foundFirst, foundSecond⟩ := Option.bind_eq_some_iff.mp found
  obtain ⟨standsBetween, promised⟩ := first input stands middle between foundFirst
  have reads := second middle standsBetween.low_le promised
  obtain ⟨behind, last⟩ := reads between standsBetween.here value after foundSecond
  exact ⟨behind.from_le standsBetween.low_le, last⟩

theorem bind (first : Reads text low post reader)
    (second : ∀ {stop} value, post value stop → Reads text stop later (next value)) :
    Reads text low later (reader >>= next) :=
  first.bind_le fun value _ promised => second value promised

theorem pass (first : Reads text low post reader)
    (second : ∀ {stop} value, Reads text stop later (next value)) :
    Reads text low later (reader >>= next) :=
  first.bind_le fun value _ _ => second value

/-- A sequence that may go back to where it began. -/
theorem bind_back (first : Reads text low post reader)
    (second : ∀ {stop} value, post value stop → Reads text low later (next value)) :
    Reads text low later (reader >>= next) := by
  intro input stands value after found
  obtain ⟨⟨middle, between⟩, foundFirst, foundSecond⟩ := Option.bind_eq_some_iff.mp found
  obtain ⟨standsBetween, promised⟩ := first input stands middle between foundFirst
  exact second middle promised between standsBetween value after foundSecond

theorem after (looks : Looks reader) (second : ∀ value, Reads text low later (next value)) :
    Reads text low later (reader >>= next) :=
  (look looks).bind_back fun value _ => second value

theorem map {change : α → β} (reads : Reads text low post reader)
    (promised : ∀ value stop, low ≤ stop → post value stop → later (change value) stop) :
    Reads text low later (change <$> reader) := by
  intro input stands value after found
  obtain ⟨⟨middle, between⟩, foundFirst, same⟩ := Option.bind_eq_some_iff.mp found
  cases same
  obtain ⟨behind, first⟩ := reads input stands middle _ foundFirst
  exact ⟨behind, promised _ _ behind.low_le first⟩

theorem get : Reads text low (fun input _ => input.Stands text low)
    (MonadState.get : Reader Input) := by
  intro input stands value after found
  cases found
  exact ⟨stands, stands⟩

theorem set {input : Input} (stands : input.Stands text low) :
    Passes text low (MonadState.set input : Reader PUnit) := by
  intro current _ value after found
  cases found
  exact ⟨stands, trivial⟩

/-- An answer that proves wrong is given up, and another one is read from where it began. -/
theorem orBack {isWrong : Reader Bool} (looks : Looks isWrong) (reads : Reads text low post reader)
    (others : Reads text low post other) :
    Reads text low post (do
      let before ← MonadState.get
      let found ← reader
      if ← isWrong then
        MonadState.set before
        other
      else return found) := by
  refine bind_back get fun before stands input standsAgain value after found => ?_
  obtain ⟨⟨answer, behind⟩, answered, found⟩ := Option.bind_eq_some_iff.mp found
  obtain ⟨⟨wrong, same⟩, asked, found⟩ := Option.bind_eq_some_iff.mp found
  obtain rfl := looks _ _ _ asked
  cases wrong with
  | true => exact (set stands).bind_back (fun _ _ => others) input standsAgain value after found
  | false =>
      cases found
      exact reads input standsAgain _ _ answered

theorem step {change : Input → Input}
    (keeps : ∀ input, input.Stands text low → (change input).Stands text low) :
    Passes text low (modify change : Reader PUnit) := by
  intro input stands value after found
  cases found
  exact ⟨keeps input stands, trivial⟩

/-! ### Choices -/

theorem ite {condition : Prop} [Decidable condition] (isTrue : Reads text low post reader)
    (isFalse : Reads text low post other) :
    Reads text low post (if condition then reader else other) := by
  split
  · exact isTrue
  · exact isFalse

/-- A choice with the same steps after either answer. -/
theorem join_le {condition : Prop} [Decidable condition] (isTrue : Reads text low post reader)
    (isFalse : Reads text low post other)
    (second : ∀ {stop} value, low ≤ stop → post value stop → Reads text stop later (next value)) :
    Reads text low later (if condition then reader >>= next else other >>= next) :=
  ite (isTrue.bind_le second) (isFalse.bind_le second)

theorem join {condition : Prop} [Decidable condition] (isTrue : Reads text low post reader)
    (isFalse : Reads text low post other)
    (second : ∀ {stop} value, post value stop → Reads text stop later (next value)) :
    Reads text low later (if condition then reader >>= next else other >>= next) :=
  isTrue.join_le isFalse fun value _ promised => second value promised

/-- Something after an opening, or something else without it. -/
theorem join_after {condition : Prop} [Decidable condition] {opening : Reader Unit}
    (opens : ∀ {low}, Passes text low opening) (isTrue : ∀ {low}, Reads text low post reader)
    (isFalse : Reads text low post other)
    (second : ∀ {stop} value, post value stop → Reads text stop later (next value)) :
    Reads text low later
      (if condition then opening >>= fun _ => reader >>= next else other >>= next) :=
  ite (opens.pass fun _ => isTrue.bind second) (isFalse.bind second)

theorem guard {condition : Prop} [Decidable condition] {following : Unit → Reader β}
    (passed : Reads text low later (following ())) :
    Reads text low later
      (if condition then Reader.refuse >>= following else following ()) :=
  have never : Reads text low (fun _ _ => False) (Reader.refuse : Reader Unit) := refuse
  ite (never.bind fun _ impossible => impossible.elim) passed

theorem either {readers : List (Reader α)} (first : Reads text low post reader)
    (others : Reads text low post (firstOf readers)) :
    Reads text low post (firstOf (reader :: readers)) := by
  intro input stands value after found
  simp only [Reader.firstOf] at found
  split at found
  · rename_i answer answered
    cases found
    exact first input stands value after answered
  · exact others input stands value after found

theorem only (last : Reads text low post reader) : Reads text low post (firstOf [reader]) :=
  either last refuse

theorem optional? (reads : Yields text low property reader) :
    Yields text low (fun found => ∀ value, found = some value → property value)
      (Reader.optional? reader) := by
  intro input stands value after found
  rcases answered : reader input with _ | ⟨answer, behind⟩ <;>
    simp only [Reader.optional?, answered] at found <;> cases found
  · exact ⟨stands, fun value same => nomatch same⟩
  · obtain ⟨standsBehind, promised⟩ := reads input stands answer after answered
    refine ⟨standsBehind, fun value same => ?_⟩
    cases same
    exact promised

theorem maybe (passes : Passes text low reader) : Passes text low (Reader.optional? reader) :=
  passes.optional?.weaken fun _ _ _ _ => trivial

theorem skipIf {reader : Reader Unit} (passes : Passes text low reader) :
    Passes text low (Reader.skipIf reader) :=
  passes.maybe.pass fun _ => done trivial

theorem findM? {words : List String} {isFound : String → Reader Bool}
    (each : ∀ {stop} word, Passes text stop (isFound word)) :
    Passes text low (words.findM? isFound) := by
  induction words generalizing low with
  | nil => exact done trivial
  | cons word words ih =>
      refine (each word).pass fun found => ?_
      cases found with
      | true => exact done trivial
      | false => exact ih

/-! ### Tokens -/

theorem blank : Passes text low blank := step fun _ stands => stands.skipBlanks _

theorem opening : Passes text low opening := by
  refine step fun input stands => ?_
  split
  · exact stands
  · exact stands.skipOpening _

theorem stop : Reads text low
    (fun here behind => IsBoundary text here ∧ low ≤ here ∧ here ≤ behind) Reader.stop := by
  intro input stands value after found
  cases found
  exact ⟨stands, stands.boundary, stands.low_le, Nat.le_refl _⟩

theorem immediate_eq {scan : List Char → Match} {input after : Input} {value : List Char}
    (found : Reader.immediate scan input = some (value, after)) :
    ∃ rest, scan input.rest = some (value, rest) ∧
      after = { input.skip value rest with closed := false } := by
  rw [Reader.immediate] at found
  split at found
  · cases found
  · rename_i passed rest matched
    cases found
    exact ⟨rest, matched, rfl⟩

theorem atStart {next : Nat → Reader β}
    (second : ∀ here, low ≤ here → IsBoundary text here → Reads text here later (next here)) :
    Reads text low later (Reader.start >>= next) := by
  intro input stands value after found
  have blanks := stands.skipBlanks (input.rest.length + 1)
  obtain ⟨behind, promised⟩ :=
    second _ blanks.low_le blanks.boundary _ blanks.here value after found
  exact ⟨behind.from_le blanks.low_le, promised⟩

theorem immediate {scan : List Char → Match} (splits : Splits scan) :
    Passes text low (Reader.immediate scan) := by
  intro input stands value after found
  simp only [Reader.immediate] at found
  split at found
  · cases found
  · rename_i passed rest matched
    cases found
    have behind := stands.skip (splits matched)
    exact ⟨{ behind with }, trivial⟩

theorem immediate_lt {scan : List Char → Match} (splits : Splits scan)
    (consumes : Consumes scan) :
    Reads text low (fun _ stop => low < stop) (Reader.immediate scan) := by
  intro input stands value after found
  simp only [Reader.immediate] at found
  split at found
  · cases found
  · rename_i passed rest matched
    cases found
    have behind := stands.skip (splits matched)
    obtain ⟨c, others, rfl⟩ := List.exists_cons_of_ne_nil (consumes matched)
    have positive := c.utf8Size_pos
    refine ⟨{ behind with }, stands.low_le.trans_lt ?_⟩
    simp only [Input.skip, byteLength_cons]
    omega

theorem scanned {scan : List Char → Match} (splits : Splits scan) :
    Passes text low (Reader.scanned scan) :=
  blank.pass fun _ => immediate splits

theorem anyWord : Passes text low anyWord := scanned .scanName

theorem keyword (expected : String) : Passes text low (keyword expected) :=
  anyWord.pass fun _ => ite (done trivial) refuse

theorem scanned_at {scan : List Char → Match} (splits : Splits scan) {first : Char}
    (begins : ∀ text passed rest, scan text = some (passed, rest) → passed.head? = some first) :
    Reads text low (fun _ stop => ∃ place, low ≤ place ∧ place < stop ∧ CharAt text place first)
      (Reader.scanned scan) := by
  refine blank.bind_le fun _ behind _ input stands value after found => ?_
  simp only [Reader.immediate] at found
  split at found
  · cases found
  · rename_i passed rest matched
    cases found
    obtain ⟨letters, rfl⟩ := List.head?_eq_some_iff.mp (begins _ _ _ matched)
    have standsAfter := stands.skip (splits matched)
    refine ⟨{ standsAfter with }, input.offset, behind.trans stands.low_le, ?_, ?_⟩
    · have positive := first.utf8Size_pos
      simp only [Input.skip, byteLength_cons]
      omega
    · obtain ⟨front, whole, length⟩ := stands.split
      exact ⟨front, letters ++ rest, by rw [whole, splits matched, List.cons_append], length⟩

theorem character_at {input after : Input} {value : List Char} {c : Char}
    (stands : input.Stands text low)
    (found : Reader.immediate (fun text =>
      if startsWith [c] text then splitCount 1 text else none) input = some (value, after)) :
    CharAt text input.offset c ∧ after.offset = input.offset + c.utf8Size := by
  obtain ⟨rest, matched, rfl⟩ := immediate_eq found
  split at matched
  · rename_i ahead
    obtain ⟨behind, split⟩ := List.isPrefixOf_iff_prefix.mp ahead
    rw [← split] at matched
    cases matched
    obtain ⟨front, whole, length⟩ := stands.split
    exact ⟨⟨front, behind, by rw [whole, ← split]; rfl, length⟩, by simp [Input.skip]⟩
  · cases matched

theorem scanned_of_settled {input : Input} (settled : input.IsSettled)
    (scan : List Char → Match) : Reader.scanned scan input = Reader.immediate scan input := by
  change Reader.immediate scan (input.skipBlanks (input.rest.length + 1)) = _
  rw [settled.skipBlanks_eq]

theorem mark_character_at {input after : Input} {value : Unit} {expected : String} {c : Char}
    (single : expected.toList = [c]) (stands : input.Stands text low) (settled : input.IsSettled)
    (found : Reader.mark expected input = some (value, after)) :
    CharAt text input.offset c ∧ after.offset = input.offset + c.utf8Size := by
  obtain ⟨⟨passed, between⟩, taken, found⟩ := Option.bind_eq_some_iff.mp found
  cases found
  rw [scanned_of_settled settled, single, ← String.length_toList, single] at taken
  exact character_at stands taken

theorem head?_of_front {expected text passed rest : List Char} {first : Char} {count : Nat}
    (begins : expected.head? = some first)
    (matched : (if startsWith expected text then splitCount count text else none) =
      some (passed, rest)) : passed.head? = some first := by
  split at matched
  · rename_i ahead
    obtain ⟨letters, rfl⟩ := List.head?_eq_some_iff.mp begins
    obtain ⟨behind, rfl⟩ := List.isPrefixOf_iff_prefix.mp ahead
    rw [splitCount] at matched
    split at matched
    · cases matched
    · rename_i positive
      cases matched
      rw [List.head?_take, if_neg positive]
      rfl
  · cases matched

theorem mark_at {expected : String} {first : Char} (begins : expected.toList.head? = some first) :
    Reads text low (fun _ stop => ∃ place, low ≤ place ∧ place < stop ∧ CharAt text place first)
      (mark expected) :=
  (scanned_at (.front _ _) fun _ _ _ => head?_of_front begins).bind_le
    fun _ _ ⟨place, behind, before, there⟩ =>
      pure fun _ later => ⟨place, behind, before.trans_le later, there⟩

theorem mark (expected : String) : Passes text low (mark expected) :=
  (scanned (.front _ _)).pass fun _ => done trivial

theorem exactly (expected : String) : Passes text low (exactly expected) :=
  (look (.operatorIs expected)).pass fun _ => ite (mark expected) refuse

theorem leaf {scan : List Char → Match} (kind : Kind) (splits : Splits scan)
    (other : kind.isName = false) : Yields text low (Token text kind) (Reader.leaf kind scan) :=
  atStart fun _ _ starts => (immediate splits).pass fun _ => stop.bind fun _ stops =>
    done ⟨rfl, rfl, starts, stops.1, by simp [other]⟩

theorem stringLeaf {scan : List Char → Match} (splits : Splits scan)
    (delimits : Delimits Kind.string.quotes scan) :
    Yields text low (Named text) (Reader.leaf .string scan) := by
  intro input stands value after found
  obtain ⟨behind, token⟩ := leaf .string splits rfl input stands value after found
  refine ⟨behind, ⟨token.grammatical fun _ => ?_, ?_⟩, ?_⟩
  · obtain ⟨⟨passed, between⟩, taken, found⟩ := Option.bind_eq_some_iff.mp found
    obtain ⟨rest, matched, rfl⟩ := immediate_eq taken
    cases found
    obtain ⟨quote, isQuote, content, whole⟩ := delimits matched
    refine ⟨quote, isQuote, content, ?_⟩
    rw [← whole]
    exact (stands.skipBlanks _).slice_skip (splits matched)
  · rw [token.hasKind]
    rfl
  · rw [token.hasKind]
    rfl

theorem nameLeaf {scan : List Char → Match} (kind : Kind) (splits : Splits scan)
    (consumes : Consumes scan) : Yields text low (Token text kind) (Reader.leaf kind scan) :=
  atStart fun _ _ starts => (immediate_lt splits consumes).bind_le fun _ _ before =>
    stop.bind fun _ ⟨stops, behind, _⟩ =>
      done ⟨rfl, rfl, starts, stops, fun _ => before.trans_le behind⟩

theorem named (kind : Kind) : Yields text low (Token text kind) (Reader.named kind) :=
  nameLeaf kind .scanName .scanName

theorem wordNode (kind : Kind) (expected : String) (other : kind.isName = false) :
    Yields text low (Token text kind) (Reader.wordNode kind expected) :=
  atStart fun _ _ starts => (keyword expected).pass fun _ => stop.bind fun _ stops =>
    done ⟨rfl, rfl, starts, stops.1, by simp [other]⟩

theorem semicolon (ending : Ending) : Passes text low (semicolon ending) := by
  intro input stands value after found
  rcases ended : input.endOfLine? ending (input.rest.length + 1) with _ | behind <;>
    simp only [Reader.semicolon, ended] at found
  · exact mark _ input stands value after found
  · cases found
    exact ⟨stands.endOfLine? ended, trivial⟩

theorem closedLine (ending : Ending) : Passes text low (closedLine ending) := by
  intro input stands value after found
  rcases ended : input.endOfLine? ending (input.rest.length + 1) with _ | behind <;>
    simp only [Reader.closedLine, ended] at found <;> cases found
  · exact ⟨{ stands with }, trivial⟩
  · exact ⟨stands.endOfLine? ended, trivial⟩

theorem havingRefused (refused : Bool) (reads : Reads text low post reader) :
    Reads text low post (Reader.havingRefused refused reader) := by
  intro input stands value after found
  obtain ⟨⟨middle, between⟩, foundMiddle, same⟩ := Option.bind_eq_some_iff.mp found
  cases same
  obtain ⟨behind, promised⟩ :=
    reads { input with refused := refused } { stands with } value between foundMiddle
  exact ⟨{ behind with }, promised⟩

/-! ### Lists -/

theorem optionallyAll {property : Node → Prop} {reader : Reader (List Node)}
    (reads : Yields text low (fun nodes => ∀ node ∈ nodes, property node) reader) :
    Yields text low (fun nodes => ∀ node ∈ nodes, property node)
      (Reader.optionally reader) :=
  reads.optional?.bind fun found promised => done <| by
    cases found with
    | none => exact fun _ member => nomatch member
    | some nodes => exact promised nodes rfl

theorem optionally {reader : Reader (List Node)} (reads : Yields text low (Plains text) reader) :
    Yields text low (Plains text) (Reader.optionally reader) :=
  optionallyAll reads

theorem single {reader : Reader Node} (reads : Yields text low (Plain text) reader) :
    Yields text low (Plains text) (Reader.single reader) :=
  reads.bind fun _ plain => done (.one plain)

theorem repeatedAfter {opening : Reader Unit} (opens : ∀ {low}, Passes text low opening)
    (reads : ∀ {low}, Yields text low property reader) (limit : Nat) :
    Yields text low (fun values => ∀ value ∈ values, property value)
      (Reader.repeatedAfter limit opening reader) := by
  induction limit generalizing low with
  | zero => exact done fun _ member => nomatch member
  | succ limit ih =>
      refine (skipIf opens).pass fun _ => ite ?_ (done fun _ member => nomatch member)
      exact reads.bind fun _ first => ih.bind fun _ others =>
        done (List.forall_mem_cons.mpr ⟨first, others⟩)

/-- Many answers, of which each stands behind those before it. -/
theorem many_within {within : Nat → α → Nat → Prop}
    (reads : ∀ {low}, Reads text low (within low) reader)
    (widen : ∀ {lower low stop higher value}, lower ≤ low → stop ≤ higher →
      within low value stop → within lower value higher) :
    Reads text low (fun values stop => ∀ value ∈ values, within low value stop)
      (Reader.many reader) := by
  suffices repeats : ∀ fuel low, Reads text low
      (fun values stop => ∀ value ∈ values, within low value stop) (repeated fuel reader) from
    (look .fuel).bind_le fun fuel behind _ => (repeats fuel _).weaken fun _ _ _ each value member =>
      widen behind (Nat.le_refl _) (each value member)
  intro fuel
  induction fuel with
  | zero => exact fun _ => pure fun _ _ _ member => nomatch member
  | succ fuel ih =>
      intro low input stands values after found
      rcases answered : reader input with _ | ⟨first, behind⟩ <;>
        simp only [repeated, answered] at found
      · cases found
        exact ⟨stands, fun _ member => nomatch member⟩
      · obtain ⟨standsBehind, promised⟩ := reads input stands first behind answered
        have rest : Reads text behind.offset
            (fun values stop => ∀ value ∈ values, within low value stop)
            ((first :: ·) <$> repeated fuel reader) :=
          (ih behind.offset).map fun others stop later each =>
            List.forall_mem_cons.mpr ⟨widen (Nat.le_refl _) later promised, fun value member =>
              widen standsBehind.low_le (Nat.le_refl _) (each value member)⟩
        obtain ⟨standsAfter, each⟩ := rest behind standsBehind.here values after found
        exact ⟨standsAfter.from_le standsBehind.low_le, each⟩

theorem many (reads : ∀ {low}, Yields text low property reader) :
    Yields text low (fun values => ∀ value ∈ values, property value) (Reader.many reader) :=
  many_within reads fun _ _ promised => promised

theorem manyAfter {opening : Reader Unit} (opens : ∀ {low}, Passes text low opening)
    (reads : ∀ {low}, Yields text low property reader) :
    Yields text low (fun values => ∀ value ∈ values, property value)
      (Reader.manyAfter opening reader) :=
  (look .fuel).pass fun limit => repeatedAfter opens reads limit

theorem manyPlain {reader : Reader Node} (reads : ∀ {low}, Yields text low (Plain text) reader) :
    Yields text low (Plains text) (Reader.many reader) :=
  many reads

theorem commaSeparated {reader : Reader Node}
    (reads : ∀ {low}, Yields text low (Plain text) reader) :
    Yields text low (Plains text) (Reader.commaSeparated reader) :=
  reads.bind fun _ first => (manyPlain ((mark ",").pass fun _ => reads)).bind fun _ others =>
    done (.cons first others)

theorem commaListFrom {first reader : Reader Node}
    (readsFirst : ∀ {low}, Yields text low (Plain text) first)
    (reads : ∀ {low}, Yields text low (Plain text) reader) :
    Yields text low (Plains text) (Reader.commaListFrom first reader) :=
  readsFirst.single.optionally.bind fun _ head =>
    (many ((mark ",").pass fun _ => reads.single.optionally)).bind fun _ others =>
      done (Plains.append head (.flatten others))

theorem commaList {reader : Reader Node} (reads : ∀ {low}, Yields text low (Plain text) reader) :
    Yields text low (Plains text) (Reader.commaList reader) :=
  commaListFrom reads reads

/-! ### Nodes -/

theorem inRole {reader : Reader Node} (role : Role) (reads : Yields text low (Plain text) reader) :
    Yields text low (Plain text) (Reader.inRole role reader) :=
  reads.bind fun _ plain => done (plain.withRole role)

theorem nameInRole {reader : Reader Node} (role : Role)
    (reads : Yields text low (Named text) reader) :
    Yields text low (Named text) (Reader.inRole role reader) :=
  reads.bind fun _ named => done (named.withRole role)

theorem token {kind : Kind} {reader : Reader Node} (isBare : kind.isBare = true)
    (reads : Yields text low (Token text kind) reader) : Yields text low (Plain text) reader :=
  reads.weaken fun _ _ _ token => token.plain isBare

theorem name {kind : Kind} {reader : Reader Node} (isBareName : kind.isBareName = true)
    (reads : Yields text low (Token text kind) reader) : Yields text low (Named text) reader :=
  reads.weaken fun _ _ _ token => token.name isBareName

theorem node {kind : Kind} {children : Reader (List Node)} (ordinary : kind.isOrdinary = true)
    (reads : ∀ {low}, Yields text low (Plains text) children) :
    Yields text low (Plain text) (Reader.node kind children) :=
  atStart fun _ _ starts => reads.bind fun _ parts => stop.bind fun _ stops =>
    done (.of_ordinary ordinary starts stops.1 parts)

theorem nodeOfWords {kind : Kind} {children : Reader (List Node)}
    (isBareName : kind.isBareName = true)
    (other : kind ≠ .propertyIdentifier)
    (reads : ∀ {low}, Yields text low
      (fun nodes => ∀ node ∈ nodes, ∃ word : Kind, word.isMinor = true ∧ Token text word node)
      children) :
    Yields text low (Plain text) (Reader.node kind children) :=
  atStart fun _ _ starts => reads.bind fun _ words => stop.bind fun _ stops =>
    done (.of_words isBareName other starts stops.1 words)

theorem nodeOfNames {children : Reader (List Node)}
    (reads : ∀ {low}, Yields text low (fun nodes => ∀ node ∈ nodes, Named text node) children) :
    Yields text low (Plain text) (Reader.node .importSpecifier children) :=
  atStart fun _ _ starts => reads.bind fun _ names => stop.bind fun _ stops =>
    done (.of_names starts stops.1 names)

theorem nodeAfter {kind : Kind} {earlier : Node} {later : Reader (List Node)}
    (ordinary : kind.isOrdinary = true) (before : Plain text earlier)
    (reads : ∀ {low}, Yields text low (Plains text) later) :
    Yields text low (Plain text) (Reader.nodeAfter kind earlier later) :=
  reads.bind fun _ parts => stop.bind fun _ stops =>
    done (.of_ordinary ordinary before.starts stops.1 (.cons before parts))

theorem nodeOfFree {kind : Kind} {children : Reader (List Node)} (isFree : kind.isFree = true)
    (reads : ∀ {low}, Yields text low (Plains text) children) :
    Yields text low (fun node => Grammatical text node ∧ node.kind = kind)
      (Reader.node kind children) :=
  atStart fun _ _ starts => reads.bind fun _ parts => stop.bind fun _ stops =>
    done ⟨.of_plains isFree starts stops.1 parts, rfl⟩

theorem nodeOfBraced {kind : Kind} {children : Reader (List Node)}
    (ordinary : kind.isOrdinary = true)
    (reads : ∀ {low}, Reads text low (Braced text low) children) :
    Yields text low (Plain text) (Reader.node kind children) :=
  atStart fun _ _ starts => reads.bind fun _ parts => stop.bind fun _ stops =>
    done (.of_braced ordinary starts stops.1 (parts.widen stops.2.1))

theorem spanned {post : Node → Nat → Prop} {kind : Kind} {children : Reader (List Node)}
    (reads : Reads text low post (Reader.node kind children)) :
    Reads text low (fun node high => post node high ∧ low ≤ node.start ∧ node.stop ≤ high)
      (Reader.node kind children) := by
  refine reads.and fun input stands whole after found => ?_
  obtain ⟨⟨parts, last⟩, -, same⟩ := Option.bind_eq_some_iff.mp found
  cases same
  exact ⟨(stands.skipBlanks _).low_le, Nat.le_refl _⟩

theorem leaf_behind {post : Node → Nat → Prop} {kind : Kind} {scan : List Char → Match}
    (reads : Reads text low post (Reader.leaf kind scan)) :
    Reads text low (fun node stop => post node stop ∧ low ≤ node.start)
      (Reader.leaf kind scan) := by
  refine reads.and fun input stands node after found => ?_
  obtain ⟨⟨passed, last⟩, -, same⟩ := Option.bind_eq_some_iff.mp found
  cases same
  exact (stands.skipBlanks _).low_le

theorem nodeAfter_start {post : Node → Nat → Prop} {kind : Kind} {earlier : Node}
    {following : Reader (List Node)}
    (reads : Reads text low post (Reader.nodeAfter kind earlier following)) :
    Reads text low (fun node stop => post node stop ∧ node.start = earlier.start)
      (Reader.nodeAfter kind earlier following) := by
  refine reads.and fun input stands node after found => ?_
  obtain ⟨⟨parts, last⟩, -, same⟩ := Option.bind_eq_some_iff.mp found
  cases same
  rfl

end Reads

end ComponentSurvey.Syntax
