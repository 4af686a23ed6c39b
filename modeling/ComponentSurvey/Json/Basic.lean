/-!
# JSON values

Objects keep their members in the order in which they were written.  Numbers are integers or the
bits of a finite binary fraction of 64 bits.
-/

namespace ComponentSurvey

inductive Json
  | null
  | bool (value : Bool)
  | int (value : Int)
  | float (bits : Nat)
  | string (value : String)
  | array (items : List Json)
  | object (members : List (String × Json))
deriving Repr, Inhabited

namespace Json

mutual
def decideEq (first second : Json) : Decidable (first = second) :=
  match first, second with
  | .null, .null => isTrue rfl
  | .bool a, .bool b =>
    if same : a = b then isTrue (by rw [same]) else isFalse (by simpa using same)
  | .int a, .int b =>
    if same : a = b then isTrue (by rw [same]) else isFalse (by simpa using same)
  | .float a, .float b =>
    if same : a = b then isTrue (by rw [same]) else isFalse (by simpa using same)
  | .string a, .string b =>
    if same : a = b then isTrue (by rw [same]) else isFalse (by simpa using same)
  | .array a, .array b =>
    match decideEqList a b with
    | isTrue same => isTrue (by rw [same])
    | isFalse differ => isFalse (by simpa using differ)
  | .object a, .object b =>
    match decideEqMembers a b with
    | isTrue same => isTrue (by rw [same])
    | isFalse differ => isFalse (by simpa using differ)
  | .null, .bool _ | .null, .int _ | .null, .float _ | .null, .string _ | .null, .array _
  | .null, .object _ => isFalse (by simp)
  | .bool _, .null | .bool _, .int _ | .bool _, .float _ | .bool _, .string _
  | .bool _, .array _ | .bool _, .object _ => isFalse (by simp)
  | .int _, .null | .int _, .bool _ | .int _, .float _ | .int _, .string _ | .int _, .array _
  | .int _, .object _ => isFalse (by simp)
  | .float _, .null | .float _, .bool _ | .float _, .int _ | .float _, .string _
  | .float _, .array _ | .float _, .object _ => isFalse (by simp)
  | .string _, .null | .string _, .bool _ | .string _, .int _ | .string _, .float _
  | .string _, .array _ | .string _, .object _ => isFalse (by simp)
  | .array _, .null | .array _, .bool _ | .array _, .int _ | .array _, .float _
  | .array _, .string _ | .array _, .object _ => isFalse (by simp)
  | .object _, .null | .object _, .bool _ | .object _, .int _ | .object _, .float _
  | .object _, .string _ | .object _, .array _ => isFalse (by simp)

def decideEqList (first second : List Json) : Decidable (first = second) :=
  match first, second with
  | [], [] => isTrue rfl
  | [], _ :: _ => isFalse (by simp)
  | _ :: _, [] => isFalse (by simp)
  | a :: as, b :: bs =>
    match decideEq a b, decideEqList as bs with
    | isTrue same, isTrue sameRest => isTrue (by rw [same, sameRest])
    | isFalse differ, _ => isFalse (by simp [differ])
    | _, isFalse differ => isFalse (by simp [differ])

def decideEqMembers (first second : List (String × Json)) : Decidable (first = second) :=
  match first, second with
  | [], [] => isTrue rfl
  | [], _ :: _ => isFalse (by simp)
  | _ :: _, [] => isFalse (by simp)
  | (k, a) :: as, (l, b) :: bs =>
    match decideEq a b, decideEqMembers as bs with
    | isTrue same, isTrue sameRest =>
      if sameKey : k = l then isTrue (by rw [same, sameRest, sameKey])
      else isFalse (by simp [sameKey])
    | isFalse differ, _ => isFalse (by simp [differ])
    | _, isFalse differ => isFalse (by simp [differ])
end

instance : DecidableEq Json := decideEq

def nat (value : Nat) : Json := .int value

def strings (values : List String) : Json := .array (values.map .string)

def counts (values : List (String × Nat)) : Json :=
  .object (values.map fun entry => (entry.1, nat entry.2))

def optional (name : String) (value : Option Json) : List (String × Json) :=
  (value.map fun value => (name, value)).toList

def orNull (value : Option Json) : Json := value.getD .null

def members? : Json → Option (List (String × Json))
  | .object members => some members
  | _ => none

/-- The last member of the name: a repeated one replaces those before it. -/
def member? (name : String) (members : List (String × Json)) : Option Json :=
  (members.reverse.find? fun member => member.1 = name).map Prod.snd

/-- A member that counts as absent when it is null. -/
def present? (name : String) (members : List (String × Json)) : Option Json :=
  match member? name members with
  | some .null => none
  | found => found

def string? : Json → Option String
  | .string value => some value
  | _ => none

def bool? : Json → Option Bool
  | .bool value => some value
  | _ => none

def nat? : Json → Option Nat
  | .int (.ofNat value) => some value
  | _ => none

def items? : Json → Option (List Json)
  | .array items => some items
  | _ => none

def stringField? (name : String) (members : List (String × Json)) : Option String :=
  (member? name members).bind string?

def natField? (name : String) (members : List (String × Json)) : Option Nat :=
  (member? name members).bind nat?

def boolField? (name : String) (members : List (String × Json)) : Option Bool :=
  (member? name members).bind bool?

def listField? {α : Type} (read : Json → Option α) (name : String)
    (members : List (String × Json)) : Option (List α) :=
  ((member? name members).bind items?).bind fun items => items.mapM read

def countsField? (name : String) (members : List (String × Json)) :
    Option (List (String × Nat)) :=
  ((member? name members).bind members?).bind fun entries =>
    entries.mapM fun entry => (nat? entry.2).map fun count => (entry.1, count)

def optionalField? {α : Type} (read : Json → Option α) (name : String)
    (members : List (String × Json)) : Option (Option α) :=
  match present? name members with
  | none => some none
  | some value => (read value).map some

end Json

end ComponentSurvey
