import ComponentSurvey.Proofs.Migration.AttributeSpans
import ComponentSurvey.Proofs.Migration.Repetition

/-!
# The search in plain text

In a text that does not parse, a name is renamed wherever it stands between white space and the
opening of a value.  The search passes over each find as a whole and still misses none, since no
name stands in what it passes over; and the names it leaves open no further ones.
-/

namespace ComponentSurvey

open Syntax Text

namespace AttributeRename

def isPlainNameChar (c : Char) : Bool := isAsciiLetter c || isDigit c || c = '_' || c = '$'

structure IsPlainName (name : List Char) : Prop where
  nonempty : name ≠ []
  plain : ∀ c ∈ name, isPlainNameChar c = true

instance (name : List Char) : Decidable (IsPlainName name) :=
  decidable_of_iff (name ≠ [] ∧ name.all isPlainNameChar = true)
    ⟨fun both => ⟨both.1, List.all_eq_true.mp both.2⟩, fun isPlain =>
      ⟨isPlain.nonempty, List.all_eq_true.mpr isPlain.plain⟩⟩

theorem isAscii_of_isPlainNameChar {c : Char} (plain : isPlainNameChar c = true) :
    c.toNat < 128 := by
  simp only [isPlainNameChar, isAsciiLetter, isDigit, Bool.or_eq_true, Bool.and_eq_true,
    decide_eq_true_eq, Char.le_def, UInt32.le_iff_toNat_le] at plain
  rcases plain with (((both | both) | both) | rfl) | rfl
  · exact both.2.trans_lt (by decide)
  · exact both.2.trans_lt (by decide)
  · exact both.2.trans_lt (by decide)
  · decide
  · decide

theorem endsName_of_isPlainNameChar {c : Char} (plain : isPlainNameChar c = true) :
    endsName c = false := by
  have ascii : ∀ n : Fin 128,
      isPlainNameChar (Char.ofNat n) = true → endsName (Char.ofNat n) = false := by decide +kernel
  have here := ascii ⟨c.toNat, isAscii_of_isPlainNameChar plain⟩
  rw [Char.ofNat_toNat] at here
  exact here plain

theorem IsPlainName.isWord {name : List Char} (isPlain : IsPlainName name) : IsWord name :=
  ⟨isPlain.nonempty, fun c member => endsName_of_isPlainNameChar (isPlain.plain c member)⟩

/-- A name stands between a white-space character and, white space aside, an equals sign and the
opening of a value. -/
def StandsAsAttribute (name text : List Char) (span : Span) : Prop :=
  ∃ (front : List Char) (blank : Char) (gap more : List Char) (opener : Char) (back : List Char),
    text = front ++ blank :: (name ++ (gap ++ '=' :: (more ++ opener :: back))) ∧
    isBlank blank = true ∧ (∀ c ∈ gap, isBlank c = true) ∧ (∀ c ∈ more, isBlank c = true) ∧
    opensValue opener = true ∧ span.start = byteLength (front ++ [blank]) ∧
    span.stop = span.start + byteLength name

theorem mem_spansFrom_iff {name text : List Char} {offset : Nat} {span : Span} :
    span ∈ spansFrom name offset text ↔ ∃ front c back, text = front ++ c :: back ∧
      (afterAttribute? name (c :: back)).isSome = true ∧
      span.start = offset + byteLength (front ++ [c]) ∧
      span.stop = span.start + byteLength name := by
  induction text generalizing offset with
  | nil => simp [spansFrom]
  | cons d rest ih =>
      rw [spansFrom]
      constructor
      · intro member
        have split : ((afterAttribute? name (d :: rest)).isSome = true ∧
            span = ⟨offset + d.utf8Size, offset + d.utf8Size + byteLength name⟩) ∨
              span ∈ spansFrom name (offset + d.utf8Size) rest := by
          split at member
          · rename_i found
            exact (List.mem_cons.mp member).imp_left fun same => ⟨found, same⟩
          · exact .inr member
        rcases split with ⟨found, rfl⟩ | later
        · exact ⟨[], d, rest, rfl, found, by simp, rfl⟩
        · obtain ⟨front, c, back, rfl, found, starts, stops⟩ := ih.mp later
          exact ⟨d :: front, c, back, rfl, found, by simp [starts]; omega, stops⟩
      · rintro ⟨front, c, back, same, found, starts, stops⟩
        cases front with
        | nil =>
            obtain ⟨rfl, rfl⟩ := List.cons.inj same
            have here : span = ⟨offset + d.utf8Size, offset + d.utf8Size + byteLength name⟩ := by
              obtain ⟨start, stop⟩ := span
              obtain rfl : start = offset + d.utf8Size := by simpa using starts
              rw [Span.mk.injEq]
              exact ⟨rfl, stops⟩
            rw [if_pos found]
            exact List.mem_cons.mpr (.inl here)
        | cons e front =>
            obtain ⟨rfl, rfl⟩ := List.cons.inj same
            have later : span ∈ spansFrom name (offset + d.utf8Size) (front ++ c :: back) :=
              ih.mpr ⟨front, c, back, rfl, found, by simp at starts ⊢; omega, stops⟩
            split
            · exact List.mem_cons_of_mem _ later
            · exact later

theorem mem_textSpans_iff {name text : List Char} {span : Span} (word : IsWord name) :
    span ∈ textSpans name text ↔ StandsAsAttribute name text span := by
  rw [textSpans, foundSpans_eq word, mem_spansFrom_iff]
  simp only [Option.isSome_iff_exists, afterAttribute?_eq_some_iff, value?_eq_some_iff,
    List.take_zero, List.drop_zero, byteLength_nil, Nat.add_zero, Nat.zero_add]
  constructor
  · rintro ⟨front, c, back, rfl, ⟨after, d, tail, same, blank, gap, more, opener, rfl, areBlank,
      alsoBlank, opens⟩, starts, stops⟩
    obtain ⟨rfl, rfl⟩ := List.cons.inj same
    exact ⟨front, c, gap, more, opener, after, rfl, blank, areBlank, alsoBlank, opens, starts,
      stops⟩
  · rintro ⟨front, blank, gap, more, opener, back, rfl, isBlank, areBlank, alsoBlank, opens, starts,
      stops⟩
    exact ⟨front, blank, _, rfl, ⟨back, blank, _, rfl, isBlank, gap, more, opener, rfl, areBlank,
      alsoBlank, opens⟩, starts, stops⟩

section Settles

variable {rename : AttributeRename}

theorem textSpans_perform (proper : rename.IsProper) (distinct : rename.old ≠ rename.new)
    (text : List Char) :
    textSpans rename.old.toList (rename.perform text (textSpans rename.old.toList text)) = [] := by
  rw [perform_textSpans proper.old, textSpans_eq_nil_iff proper.old]
  by_contra found
  rw [Bool.not_eq_false] at found
  exact (hasAttribute_of_renameText proper proper.old (mt String.toList_inj.mp distinct) found).2
    rfl

variable {path : String} {text code : List Char}

theorem code_applyRenames_of_unparsed (unparsed : Document.ofComponentFile? path text = none) :
    (applyRenames [rename] path text).code =
      some (rename.perform text (textSpans rename.old.toList text)) := by
  rw [← Pipeline.spans_of_unparsed unparsed]
  rfl

theorem applyRenames_of_unparsed (proper : rename.IsProper) (distinct : rename.old ≠ rename.new)
    (unparsed : Document.ofComponentFile? path text = none)
    (left : (applyRenames [rename] path text).code = some code)
    (stays : Document.ofComponentFile? path code = none) :
    applyRenames [rename] path code = .success code [] [] := by
  have renamed : rename.perform text (textSpans rename.old.toList text) = code :=
    Option.some.inj ((code_applyRenames_of_unparsed unparsed).symm.trans left)
  have idle : ∀ other ∈ [rename], other.spans path code = [] := by
    rw [List.forall_mem_singleton, Pipeline.spans_of_unparsed stays, ← renamed]
    exact textSpans_perform proper distinct text
  rw [applyRenames_eq, foldl_renameStep_of_idle idle]

/--
The search for a plain name finds all the stretches of a text that spell it between white space and
the opening of a value, and no others, from left to right and apart.  Once they have another plain
name it finds nothing, so that a second rename of a text that does not parse changes nothing, if it
does not parse after the first one either.
-/
theorem textSpans_complete (old : IsPlainName rename.old.toList)
    (new : IsPlainName rename.new.toList) (distinct : rename.old ≠ rename.new)
    (text : List Char) :
    (∀ span, span ∈ textSpans rename.old.toList text ↔
        StandsAsAttribute rename.old.toList text span) ∧
      InOrder (textSpans rename.old.toList text) ∧
      textSpans rename.old.toList (rename.perform text (textSpans rename.old.toList text)) = [] ∧
      ∀ path code, Document.ofComponentFile? path text = none →
        (applyRenames [rename] path text).code = some code →
          Document.ofComponentFile? path code = none →
            applyRenames [rename] path code = .success code [] [] := by
  have proper : rename.IsProper := ⟨old.isWord, new.isWord⟩
  exact ⟨fun _ => mem_textSpans_iff proper.old, inOrder_textSpans _ _,
    textSpans_perform proper distinct text, fun _ _ => applyRenames_of_unparsed proper distinct⟩

/-- A statement that does not parse behind an attribute and a variable of one name. -/
def brokenForm : List Char :=
  "if (a && validation === b) \x7b validation = next; \x7d\n".toList ++
    "const f = <F validation=\x7bv\x7d />;\nconst = ;\n".toList

def mendedForm : List Char :=
  "if (a && validation === b) \x7b validation = next; \x7d\n".toList ++
    "const f = <F validationRules=\x7bv\x7d />;\nconst = ;\n".toList

theorem textSpans_complete_form :
    StandsAsAttribute "validation".toList brokenForm ⟨63, 73⟩ ∧
      textSpans "validation".toList mendedForm = [] ∧
      (applyRenames [⟨"validation", "validationRules"⟩] "Form.tsx" brokenForm).code =
        some mendedForm ∧
      applyRenames [⟨"validation", "validationRules"⟩] "Form.tsx" mendedForm =
        .success mendedForm [] [] := by
  have unparsed : Document.ofComponentFile? "Form.tsx" brokenForm = none := by decide +kernel
  have stays : Document.ofComponentFile? "Form.tsx" mendedForm = none := by decide +kernel
  have found : textSpans "validation".toList brokenForm = [⟨63, 73⟩] := by decide +kernel
  have performed : AttributeRename.perform ⟨"validation", "validationRules"⟩ brokenForm
      (textSpans "validation".toList brokenForm) = mendedForm := by
    rw [found]
    decide +kernel
  have renamed : (applyRenames [⟨"validation", "validationRules"⟩] "Form.tsx" brokenForm).code =
      some mendedForm := by
    rw [code_applyRenames_of_unparsed unparsed, performed]
  obtain ⟨places, -, settled, again⟩ := @textSpans_complete ⟨"validation", "validationRules"⟩
    (by decide) (by decide) (by decide) brokenForm
  exact ⟨(places _).mp (found ▸ List.mem_singleton_self _), performed ▸ settled, renamed,
    again "Form.tsx" mendedForm unparsed renamed stays⟩

end Settles

end AttributeRename

end ComponentSurvey
