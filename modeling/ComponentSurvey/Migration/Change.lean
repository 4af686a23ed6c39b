import ComponentSurvey.Json.Basic

/-!
# Changes

What a migration reports about one edit of the text.
-/

namespace ComponentSurvey

inductive ChangeKind
  | replace | add | remove | update
deriving DecidableEq, Repr, Inhabited

namespace ChangeKind

def label : ChangeKind → String
  | .replace => "replace"
  | .add => "add"
  | .remove => "remove"
  | .update => "update"

end ChangeKind

structure Change where
  kind : ChangeKind
  description : String
  /-- Line and byte column in the text that the change was made to. -/
  position : Option (Nat × Nat)
  before : Option String
  after : Option String
deriving DecidableEq, Repr, Inhabited

namespace Change

def toJson (change : Change) : Json :=
  .object <|
    [("type", .string change.kind.label), ("description", .string change.description)] ++
    Json.optional "line" (change.position.map fun position => Json.nat position.1) ++
    Json.optional "column" (change.position.map fun position => Json.nat position.2) ++
    Json.optional "before" (change.before.map .string) ++
    Json.optional "after" (change.after.map .string)

end Change

end ComponentSurvey
