import ComponentSurvey.Text.CharClass

/-!
# Binary fractions of 64 bits

`roundQuotient` rounds a positive quotient to the nearest binary fraction with 53 significant
bits, a tie to the even neighbour, and answers the bits of that fraction.  Everything is exact
arithmetic on natural numbers.
-/

namespace ComponentSurvey.Binary64

/-- A quotient rounded to the nearest integer, a tie to the even one. -/
def divRoundEven (numerator denominator : Nat) : Nat :=
  let whole := numerator / denominator
  let rest := numerator % denominator
  if 2 * rest < denominator then whole
  else if denominator < 2 * rest then whole + 1
  else if whole % 2 = 0 then whole
  else whole + 1

/-- The exponent of the largest power of two that does not exceed a positive quotient. -/
def binaryOrder (numerator denominator : Nat) : Int :=
  let estimate : Int := (Nat.log2 numerator : Int) - Nat.log2 denominator
  let reaches :=
    if 0 ≤ estimate then denominator * Nat.pow 2 estimate.toNat ≤ numerator
    else denominator ≤ numerator * Nat.pow 2 (-estimate).toNat
  if reaches then estimate else estimate - 1

/-- What the leading digit of a significand counts, which is not stored: two to the 52. -/
def hiddenBit : Nat := 0x10000000000000

def signBit : Nat := 0x8000000000000000

/-- The bits from which on a pattern stands for no finite number. -/
def firstInfinite : Nat := 0x7ff0000000000000

/-- The nearest pattern of bits; it is not finite when the quotient is too large. -/
def roundQuotient (numerator denominator : Nat) : Nat :=
  if numerator = 0 then 0
  else
    let exponent := max (binaryOrder numerator denominator - 52) (-1074)
    let significand :=
      if 0 ≤ exponent then divRoundEven numerator (denominator * Nat.pow 2 exponent.toNat)
      else divRoundEven (numerator * Nat.pow 2 (-exponent).toNat) denominator
    significand + (exponent + 1074).toNat * hiddenBit

/-- The nearest pattern to `digits · 10 ^ exponent`, if that is finite. -/
def ofDecimal? (digits : Nat) (exponent : Int) : Option Nat :=
  let order : Int := (Nat.log2 digits : Int) / 4 + exponent
  let bits :=
    if digits = 0 || order + Nat.log2 digits < -400 then 0
    else if 400 < order then firstInfinite
    else if 0 ≤ exponent then roundQuotient (digits * Nat.pow 10 exponent.toNat) 1
    else roundQuotient digits (Nat.pow 10 (-exponent).toNat)
  if bits < firstInfinite then some bits else none

def digitValue (c : Char) : Nat := c.toNat - '0'.toNat

def digitsValue (digits : List Char) : Nat :=
  digits.foldl (fun value c => 10 * value + digitValue c) 0

def exponentValue? (text : List Char) : Option Int :=
  let (isNegative, digits) :=
    match text with
    | '-' :: rest => (true, rest)
    | '+' :: rest => (false, rest)
    | rest => (false, rest)
  if digits.isEmpty || !digits.all Text.isDigit then none
  else
    let value : Int := digitsValue digits
    some (if isNegative then -value else value)

/-- Reads digits with an optional point and exponent: at least one digit must stand beside the
point. -/
def ofText? (text : List Char) : Option Nat := do
  let whole := text.takeWhile Text.isDigit
  let afterWhole := text.drop whole.length
  let fraction :=
    match afterWhole with
    | '.' :: rest => rest.takeWhile Text.isDigit
    | _ => []
  let afterFraction :=
    match afterWhole with
    | '.' :: rest => rest.drop fraction.length
    | rest => rest
  if whole.isEmpty && fraction.isEmpty then none
  else
    let exponent ←
      match afterFraction with
      | [] => some 0
      | letter :: rest => if letter = 'e' || letter = 'E' then exponentValue? rest else none
    ofDecimal? (digitsValue (whole ++ fraction)) (exponent - fraction.length)

end ComponentSurvey.Binary64
