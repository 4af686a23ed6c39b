import ComponentSurvey.Glob.Matching
import ComponentSurvey.Settings.Basic

/-!
# Filters

Which paths below the root of a project are looked at.
-/

namespace ComponentSurvey

structure Filter where
  included : List Glob.Pattern
  excluded : List Glob.Pattern
  deep : Bool
deriving DecidableEq, Repr, Inhabited

namespace Filter

def compile (included excluded : List String) (deep : Bool) :
    Except Glob.PatternError Filter := do
  return ⟨← Glob.parseAll included, ← Glob.parseAll excluded, deep⟩

def accepts (filter : Filter) (path : String) : Bool :=
  (filter.deep || (Path.parts path).length ≤ 1) &&
    (filter.included.isEmpty || Glob.anyMatches filter.included path) &&
    !Glob.anyMatches filter.excluded path

end Filter

end ComponentSurvey
