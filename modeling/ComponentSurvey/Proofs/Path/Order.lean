import ComponentSurvey.Path.Basic
import Mathlib.Data.Char
import Mathlib.Data.List.Lex
import Mathlib.Data.Prod.Lex

/-!
# The order of paths

`place` sends a path to a word over a linear order.  Two paths are the same when
their words are, and one comes before another when its word does.
-/

namespace ComponentSurvey.Path

namespace Part

def key : Part → Nat ×ₗ List Char
  | name text => toLex (3, text)
  | part => toLex (part.rank, [])

theorem key_injective : Function.Injective key := by
  intro first second equal
  cases first <;> cases second <;> simp_all [key, rank]

theorem isLess_iff_key (first second : Part) :
    first.isLess second = true ↔ first.key < second.key := by
  cases first <;> cases second <;>
    simp [isLess, key, rank, Prod.Lex.toLex_lt_toLex]

end Part

def place (path : String) : List (Nat ×ₗ List Char) :=
  (parts path).map Part.key

private theorem isLessParts_iff_map (first second : List Part) :
    isLessParts first second = true ↔
      first.map Part.key < second.map Part.key := by
  induction first generalizing second with
  | nil => cases second <;> simp [isLessParts]
  | cons part others ih =>
      cases second with
      | nil => simp [isLessParts]
      | cons next more =>
          simp only [isLessParts, Bool.or_eq_true, Bool.and_eq_true,
            decide_eq_true_eq, Part.isLess_iff_key, ih, List.map_cons,
            List.cons_lt_cons_iff, Part.key_injective.eq_iff]

theorem isLess_iff {first second : String} :
    isLess first second = true ↔ place first < place second :=
  isLessParts_iff_map _ _

theorem isSame_iff {first second : String} :
    isSame first second = true ↔ place first = place second := by
  simp only [isSame, decide_eq_true_eq, place,
    (List.map_injective_iff.mpr Part.key_injective).eq_iff]

theorem mayPrecede_iff {first second : String} :
    mayPrecede first second = true ↔ place first ≤ place second := by
  rw [mayPrecede, Bool.not_eq_true', ← Bool.not_eq_true, isLess_iff]
  exact not_lt (a := place second) (b := place first)

end ComponentSurvey.Path
