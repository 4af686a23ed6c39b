import ComponentSurvey.Migration.Change

/-!
# Outcomes

What running one rule, or a list of rules, on a text comes to.  A run that produces no text has
failed.
-/

namespace ComponentSurvey

inductive RuleError
  | unparsed (path : String)
  | stated (message : String)
deriving DecidableEq, Repr, Inhabited

namespace RuleError

/-- The place of a syntax error is not part of its message. -/
def message : RuleError → String
  | .unparsed path => s!"Failed to parse file: syntax error in {path}"
  | .stated message => message

end RuleError

structure RuleFailure where
  rule : String
  error : RuleError
deriving DecidableEq, Repr, Inhabited

namespace RuleFailure

def message (failure : RuleFailure) : String := s!"{failure.rule}: {failure.error.message}"

end RuleFailure

structure Outcome (ε : Type) where
  code : Option (List Char)
  changes : List Change
  errors : List ε
  warnings : List String
deriving DecidableEq, Repr, Inhabited

namespace Outcome

variable {ε : Type}

def success (code : List Char) (changes : List Change) (warnings : List String) : Outcome ε :=
  ⟨some code, changes, [], warnings⟩

def failure (error : ε) : Outcome ε := ⟨none, [], [error], []⟩

def succeeded (outcome : Outcome ε) : Bool := outcome.code.isSome

def hasChanges (outcome : Outcome ε) : Bool :=
  outcome.succeeded && !outcome.changes.isEmpty

def toJson (message : ε → String) (outcome : Outcome ε) : Json :=
  .object <|
    [("success", .bool outcome.succeeded)] ++
    Json.optional "code" (outcome.code.map fun code => .string (String.ofList code)) ++
    [("changes", .array (outcome.changes.map Change.toJson)),
      ("errors", Json.strings (outcome.errors.map message)),
      ("warnings", Json.strings outcome.warnings)]

end Outcome

end ComponentSurvey
