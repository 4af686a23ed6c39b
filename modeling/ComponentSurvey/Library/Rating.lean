/-!
# Bands

Every count that is turned into a band, and every limit between two bands, stands here.
-/

namespace ComponentSurvey

inductive Effort
  | low | medium | high
deriving DecidableEq, Repr, Inhabited

namespace Effort

def label : Effort → String
  | .low => "Low"
  | .medium => "Medium"
  | .high => "High"

def ofIssues (issues : Nat) : Effort :=
  if issues ≤ 10 then .low else if issues ≤ 25 then .medium else .high

end Effort

inductive Complexity
  | low | medium | high
deriving DecidableEq, Repr, Inhabited

namespace Complexity

def label : Complexity → String
  | .low => "low"
  | .medium => "medium"
  | .high => "high"

/-- A hook with side effects weighs as much as two usages. -/
def ofFile (hooks usages : Nat) (sideEffects : Bool) : Complexity :=
  let score := hooks + usages + if sideEffects then 2 else 0
  if score ≤ 5 then .low else if score ≤ 15 then .medium else .high

def ofForm (fieldTypes : Nat) : Complexity :=
  if 6 ≤ fieldTypes then .high else if 3 ≤ fieldTypes then .medium else .low

def ofLabel? : String → Option Complexity
  | "low" => some .low
  | "medium" => some .medium
  | "high" => some .high
  | _ => none

end Complexity

inductive MigrationComplexity
  | simple | medium | complex
deriving DecidableEq, Repr, Inhabited

namespace MigrationComplexity

def label : MigrationComplexity → String
  | .simple => "simple"
  | .medium => "medium"
  | .complex => "complex"

def ofCounts (issues props : Nat) : MigrationComplexity :=
  if issues ≤ 0 && props ≤ 5 then .simple
  else if issues ≤ 2 && props ≤ 10 then .medium
  else .complex

end MigrationComplexity

inductive Priority
  | low | medium | high
deriving DecidableEq, Repr, Inhabited

namespace Priority

def label : Priority → String
  | .low => "low"
  | .medium => "medium"
  | .high => "high"

/-- A pattern found five times is worth doing first. -/
def ofFrequency (frequency : Nat) : Priority :=
  if 5 ≤ frequency then .high else .medium

def ofLabel? : String → Option Priority
  | "low" => some .low
  | "medium" => some .medium
  | "high" => some .high
  | _ => none

end Priority

/-- From this many forms of one shape on, the shape is a pattern. -/
def formPatternMinimum : Nat := 2

def dataSourcePatternMinimum : Nat := 3

def pagePatternMinimum : Nat := 2

def urgentUnvalidatedForms : Nat := 5

end ComponentSurvey
