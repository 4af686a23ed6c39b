import ComponentSurvey.Json.Basic

/-!
# Files that could not be analyzed
-/

namespace ComponentSurvey

inductive FailureCause
  | unparsed
  /-- The file could not be read, or the failure was stated from outside. -/
  | stated (message : String)
deriving DecidableEq, Repr, Inhabited

structure FileFailure where
  file : String
  cause : FailureCause
deriving DecidableEq, Repr, Inhabited

namespace FileFailure

/-- Where a text stops making sense is not determined, so a text that does not parse is reported
at its beginning. -/
def toJson (failure : FileFailure) : Json :=
  .object <| ("file", .string failure.file) ::
    match failure.cause with
    | .unparsed =>
      [("message", .string "syntax error"), ("line", Json.nat 1), ("column", Json.nat 0)]
    | .stated message => [("message", .string message)]

/-- A failure with a line is one of the syntax. -/
def ofJson? (json : Json) : Option FileFailure := do
  let members ← json.members?
  let file ← Json.stringField? "file" members
  let message ← Json.stringField? "message" members
  match Json.present? "line" members with
  | some _ => return ⟨file, .unparsed⟩
  | none => return ⟨file, .stated message⟩

end FileFailure

end ComponentSurvey
