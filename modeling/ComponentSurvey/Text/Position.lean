/-!
# Byte offsets in text

A text is a list of characters; offsets count the bytes of its UTF-8 form.  `slice` reads the
characters between two offsets, `lineColumn` turns an offset into a line and a byte column.
-/

namespace ComponentSurvey.Text

def byteLength : List Char → Nat
  | [] => 0
  | c :: rest => c.utf8Size + byteLength rest

/-- The characters that begin before the byte offset. -/
def takeBytes : Nat → List Char → List Char
  | _, [] => []
  | count, c :: rest => if count = 0 then [] else c :: takeBytes (count - c.utf8Size) rest

/-- The characters that begin at or after the byte offset. -/
def dropBytes : Nat → List Char → List Char
  | _, [] => []
  | count, c :: rest => if count = 0 then c :: rest else dropBytes (count - c.utf8Size) rest

def slice (text : List Char) (start stop : Nat) : List Char :=
  takeBytes (stop - start) (dropBytes start text)

def replaceRange (text : List Char) (start stop : Nat) (replacement : List Char) : List Char :=
  takeBytes start text ++ replacement ++ dropBytes stop text

theorem takeBytes_append_dropBytes (count : Nat) (text : List Char) :
    takeBytes count text ++ dropBytes count text = text := by
  induction text generalizing count with
  | nil => rfl
  | cons c rest ih => by_cases zero : count = 0 <;> simp [takeBytes, dropBytes, zero, ih]

@[simp] theorem takeBytes_zero (text : List Char) : takeBytes 0 text = [] := by
  cases text <;> rfl

@[simp] theorem dropBytes_zero (text : List Char) : dropBytes 0 text = text := by
  cases text <;> rfl

@[simp] theorem byteLength_nil : byteLength [] = 0 := rfl

@[simp] theorem byteLength_cons (c : Char) (rest : List Char) :
    byteLength (c :: rest) = c.utf8Size + byteLength rest := rfl

@[simp] theorem byteLength_append (first second : List Char) :
    byteLength (first ++ second) = byteLength first + byteLength second := by
  induction first with
  | nil => simp
  | cons c rest ih => simp [ih, Nat.add_assoc]

def advance : List Char → Nat → Nat × Nat → Nat × Nat
  | [], _, position => position
  | c :: rest, count, position =>
    if count = 0 then position
    else if c = '\n' then advance rest (count - 1) (position.1 + 1, 0)
    else if count < c.utf8Size then (position.1, position.2 + count)
    else advance rest (count - c.utf8Size) (position.1, position.2 + c.utf8Size)

/-- Line, counted from one, and byte column, counted from zero, of a byte offset.  An offset past
the end stands for the end. -/
def lineColumn (text : List Char) (offset : Nat) : Nat × Nat :=
  advance text offset (1, 0)

end ComponentSurvey.Text
