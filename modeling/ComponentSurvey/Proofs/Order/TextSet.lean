import ComponentSurvey.Order.Distinct
import Mathlib.Data.List.Sort
import Mathlib.Data.String.Basic

/-!
# Sorted texts

A text set is sorted without repetitions, so it is known by its members.  Adding texts to a set and
counting texts one by one comes to what all texts together amount to.
-/

namespace ComponentSurvey.Order

theorem pairwise_insertText (text : String) {texts : List String}
    (sorted : texts.Pairwise (· < ·)) : (insertText text texts).Pairwise (· < ·) := by
  induction texts with
  | nil => exact List.pairwise_singleton _ _
  | cons next rest ih =>
      obtain ⟨nextLess, restSorted⟩ := List.pairwise_cons.mp sorted
      rw [insertText]
      split
      · rename_i less
        refine List.pairwise_cons.mpr ⟨?_, sorted⟩
        intro other member
        rcases List.mem_cons.mp member with rfl | later
        · exact less
        · exact lt_trans less (nextLess other later)
      · rename_i notLess
        split
        · exact sorted
        · rename_i different
          refine List.pairwise_cons.mpr ⟨?_, ih restSorted⟩
          intro other member
          rcases mem_insertText.mp member with rfl | later
          · exact lt_of_le_of_ne (not_lt.mp notLess) (Ne.symm different)
          · exact nextLess other later

theorem pairwise_textSet (texts : List String) : (textSet texts).Pairwise (· < ·) := by
  induction texts with
  | nil => exact .nil
  | cons text rest ih => exact pairwise_insertText text ih

theorem insertText_textSet (text : String) (texts : List String) :
    insertText text (textSet texts) = textSet (texts ++ [text]) := by
  refine (pairwise_insertText text (pairwise_textSet texts)).eq_of_mem_iff
    (pairwise_textSet _) fun other => ?_
  rw [mem_insertText, mem_textSet, mem_textSet, List.mem_append, List.mem_singleton, or_comm]

theorem addTexts_textSet (texts added : List String) :
    addTexts (textSet texts) added = textSet (texts ++ added) := by
  induction added generalizing texts with
  | nil => rw [List.append_nil, addTexts, List.foldl_nil]
  | cons text rest ih =>
      rw [addTexts, List.foldl_cons, insertText_textSet, ← addTexts, ih, List.append_assoc,
        List.singleton_append]

def occurrences (texts : List String) : List (String × Nat) :=
  (textSet texts).map fun text => (text, texts.count text)

theorem countText_map (text : String) {texts : List String} (sorted : texts.Pairwise (· < ·))
    (count : String → Nat) (new : text ∉ texts → count text = 0) :
    countText text (texts.map fun other => (other, count other)) =
      (insertText text texts).map fun other =>
        (other, if other = text then count other + 1 else count other) := by
  induction texts with
  | nil => simp [countText, insertText, new]
  | cons next rest ih =>
      obtain ⟨nextLess, restSorted⟩ := List.pairwise_cons.mp sorted
      have unchanged {texts : List String} (later : ∀ other ∈ texts, text < other) :
          (texts.map fun other => (other, count other)) = texts.map fun other =>
            (other, if other = text then count other + 1 else count other) := by
        refine List.map_congr_left fun other member => ?_
        rw [if_neg (ne_of_gt (later other member))]
      rw [List.map_cons, countText, insertText]
      split
      · rename_i less
        have later : ∀ other ∈ next :: rest, text < other := by
          intro other member
          rcases List.mem_cons.mp member with rfl | isLater
          · exact less
          · exact lt_trans less (nextLess other isLater)
        have absent : text ∉ next :: rest := fun member => lt_irrefl text (later text member)
        rw [List.map_cons, if_pos rfl, new absent, ← unchanged later]
        rfl
      · split
        · rename_i same
          rw [List.map_cons, if_pos same.symm, unchanged fun other member =>
            same ▸ nextLess other member]
        · rename_i different
          rw [List.map_cons, if_neg (Ne.symm different), ih restSorted fun absent =>
            new fun member => (List.mem_cons.mp member).elim different absent]

theorem countText_occurrences (text : String) (texts : List String) :
    countText text (occurrences texts) = occurrences (texts ++ [text]) := by
  rw [occurrences, countText_map text (pairwise_textSet texts) (texts.count ·), occurrences,
    insertText_textSet]
  · refine List.map_congr_left fun other _ => ?_
    rw [List.count_append, List.count_singleton]
    by_cases here : other = text
    · simp [here]
    · simp [here, Ne.symm here]
  · intro absent
    rw [mem_textSet] at absent
    exact List.count_eq_zero.mpr absent

theorem countTexts_occurrences (texts added : List String) :
    countTexts (occurrences texts) added = occurrences (texts ++ added) := by
  induction added generalizing texts with
  | nil => rw [List.append_nil, countTexts, List.foldl_nil]
  | cons text rest ih =>
      rw [countTexts, List.foldl_cons, countText_occurrences, ← countTexts, ih,
        List.append_assoc, List.singleton_append]

end ComponentSurvey.Order
