/-!
# Reading arguments

Arguments are read level by level: a level has options of its own and either a path or
subcommands.  An option is given by its long or its short name, a value stands in the same argument
or in the next one, and short names may be put together.
-/

namespace ComponentSurvey.CommandLine

inductive Takes
  | nothing
  | text
  | path
  | label (labels : List String)
deriving DecidableEq, Repr, Inhabited

namespace Takes

def accepts : Takes → String → Bool
  | nothing, _ => true
  | text, _ => true
  | path, value => !value.isEmpty
  | label labels, value => labels.contains value

end Takes

structure Switch where
  name : String
  short : Option Char
  takes : Takes
  repeats : Bool
deriving DecidableEq, Repr, Inhabited

structure Level where
  switches : List Switch
  /-- A level with subcommands takes no path. -/
  subcommands : List String
  takesPath : Bool
  hasVersion : Bool
deriving DecidableEq, Repr, Inhabited

inductive Refusal
  | help | version | misuse
deriving DecidableEq, Repr, Inhabited

structure Given where
  values : List (String × String)
  path : Option String
deriving DecidableEq, Repr, Inhabited

namespace Given

def nothing : Given := ⟨[], none⟩

def has (given : Given) (name : String) : Bool := given.values.any fun entry => entry.1 = name

def valuesOf (given : Given) (name : String) : List String :=
  (given.values.filter fun entry => entry.1 = name).map Prod.snd

def value? (given : Given) (name : String) : Option String := (given.valuesOf name).head?

end Given

inductive Piece
  | given (switch : Switch) (value : String)
  /-- The value is the next argument. -/
  | awaiting (switch : Switch)
  | refused (refusal : Refusal)
deriving DecidableEq, Repr, Inhabited

namespace Level

def switch? (level : Level) (name : String) : Option Switch :=
  level.switches.find? fun switch => switch.name = name

def shortSwitch? (level : Level) (name : Char) : Option Switch :=
  level.switches.find? fun switch => switch.short = some name

def pieceOf (switch : Switch) (attached : Option String) : Piece :=
  match switch.takes, attached with
  | .nothing, none => .given switch ""
  | .nothing, some _ => .refused .misuse
  | _, some value => .given switch value
  | _, none => .awaiting switch

def longPiece (level : Level) (body : List Char) : Piece :=
  let name := String.ofList (body.takeWhile fun c => c ≠ '=')
  let attached : Option String :=
    match body.dropWhile fun c => c ≠ '=' with
    | [] => none
    | _ :: value => some (String.ofList value)
  match level.switch? name with
  | some switch => pieceOf switch attached
  | none =>
    if name = "help" && attached.isNone then .refused .help
    else if name = "version" && level.hasVersion && attached.isNone then .refused .version
    else .refused .misuse

def shortPieces (level : Level) : List Char → List Piece
  | [] => []
  | c :: rest =>
    match level.shortSwitch? c with
    | some switch =>
      if switch.takes = .nothing then .given switch "" :: level.shortPieces rest
      else
        match rest with
        | [] => [.awaiting switch]
        | '=' :: value => [.given switch (String.ofList value)]
        | value => [.given switch (String.ofList value)]
    | none =>
      if c = 'h' then [.refused .help]
      else if c = 'V' && level.hasVersion then [.refused .version]
      else [.refused .misuse]

def pieces (level : Level) (argument : String) : List Piece :=
  match argument.toList with
  | '-' :: '-' :: body => [level.longPiece body]
  | '-' :: body => level.shortPieces body
  | _ => []

def record (given : Given) (switch : Switch) (value : String) : Except Refusal Given :=
  if switch.takes.accepts value && (switch.repeats || !given.has switch.name) then
    .ok { given with values := given.values ++ [(switch.name, value)] }
  else .error .misuse

/-- Takes up the pieces of an argument; answers the switch that awaits a value. -/
def takeUp : Given → List Piece → Except Refusal (Given × Option Switch)
  | given, [] => .ok (given, none)
  | given, .given switch value :: rest =>
    match record given switch value with
    | .ok given => takeUp given rest
    | .error refusal => .error refusal
  | given, .awaiting switch :: _ => .ok (given, some switch)
  | _, .refused refusal :: _ => .error refusal

def addPath (level : Level) (given : Given) (path : String) : Except Refusal Given :=
  if level.takesPath && given.path.isNone && !path.isEmpty then
    .ok { given with path := some path }
  else .error .misuse

def isOption (argument : String) : Bool := argument.startsWith "-" && argument ≠ "-"

/-- Reads the arguments of a level; answers a subcommand and what follows it. -/
def read (level : Level) (given : Given) :
    List String → Except Refusal (Given × Option (String × List String))
  | [] => .ok (given, none)
  | argument :: rest =>
    if argument = "--" then do
      return (← rest.foldlM level.addPath given, none)
    else if isOption argument then
      match takeUp given (level.pieces argument) with
      | .error refusal => .error refusal
      | .ok (given, none) => level.read given rest
      | .ok (given, some switch) =>
        match rest with
        | [] => .error .misuse
        | value :: after =>
          if isOption value then .error .misuse
          else
            match record given switch value with
            | .error refusal => .error refusal
            | .ok given => level.read given after
    else if level.subcommands.contains argument then .ok (given, some (argument, rest))
    else
      match level.addPath given argument with
      | .error refusal => .error refusal
      | .ok given => level.read given rest

end Level

end ComponentSurvey.CommandLine
