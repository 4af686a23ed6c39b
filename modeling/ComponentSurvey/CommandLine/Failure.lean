import ComponentSurvey.Discovery.Search

/-!
# Failures of commands

A command that fails says what it could not do and why.  Behind an error there may be another one;
all of them are told, the nearest first.
-/

namespace ComponentSurvey

def SettingsError.chain (error : SettingsError) : List String :=
  match error with
  | .unreadable _ cause => [error.message, cause.message]
  | .malformed => [error.message]

def ProjectError.chain (error : ProjectError) : List String :=
  match error with
  | .notDirectory _ => [error.message]
  | .pattern cause => [error.message, cause.message]
  | .settings cause => error.message :: cause.chain

namespace CommandLine

structure CommandFailure where
  message : String
  causes : List String
deriving DecidableEq, Repr, Inhabited

namespace CommandFailure

def settings (path : String) (error : SettingsError) : CommandFailure :=
  ⟨s!"Failed to load config: {path}", error.chain⟩

def project (message : String) (error : ProjectError) : CommandFailure := ⟨message, error.chain⟩

def report (path : String) (error : FileError) : CommandFailure :=
  ⟨s!"Failed to write report: {path}", [error.message]⟩

def file (error : FileError) : CommandFailure := ⟨error.message, []⟩

def settingsExist : CommandFailure :=
  ⟨s!"Configuration file already exists at {Settings.fileName}. Use --force to overwrite.", []⟩

/-- The lines of several causes are numbered from zero. -/
def causeLines : List String → List String
  | [] => []
  | [cause] => ["", "Caused by:", "    " ++ cause]
  | causes =>
    ["", "Caused by:"] ++ causes.zipIdx.map fun (cause, position) => s!"    {position}: {cause}"

def lines (failure : CommandFailure) : List String :=
  ("Error: " ++ failure.message) :: causeLines failure.causes

end CommandFailure

end CommandLine

end ComponentSurvey
